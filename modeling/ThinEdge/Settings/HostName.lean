import Mathlib.Logic.Basic
import ThinEdge.Settings.C8yHandoff

/-!
# The host name of the tenant

The server sends the tenant as a URL, and `prov_c8y_handoff` of `lib/common/prov_c8y.c` passes on
the host in it. `url_to_host` looks for `://` in the whole URL, where it may also occur behind the
host: `not_passesHost_query` is a URL without a scheme that sends the device to another server.
`passesHost_iff` is the exact condition, and rests on `afterText_eq_some`, what `strstr` finds.
-/

namespace ThinEdge.Settings

open Bytes

/-! ### Searching a text -/

/-- The first occurrence of a text in another, with what is in front of it and behind it. -/
def FirstAt (text s before after : List UInt8) : Prop :=
  s = before ++ (text ++ after) ∧ ∀ b a, s = b ++ (text ++ a) → before.length ≤ b.length

section Search

variable {text s after : List UInt8}

theorem FirstAt.unique {before before' after' : List UInt8} (h : FirstAt text s before after)
    (h' : FirstAt text s before' after') : before = before' ∧ after = after' := by
  have hlen : before.length = before'.length := Nat.le_antisymm (h.2 _ _ h'.1) (h'.2 _ _ h.1)
  obtain ⟨hbefore, hrest⟩ := List.append_inj (h.1.symm.trans h'.1) hlen
  exact ⟨hbefore, List.append_cancel_left hrest⟩

/-- Behind a byte at which the text does not occur. -/
theorem firstAt_cons {b : UInt8} (h : ¬ text <+: b :: s) {before : List UInt8} :
    FirstAt text (b :: s) (b :: before) after ↔ FirstAt text s before after := by
  constructor
  · rintro ⟨heq, hfirst⟩
    refine ⟨List.cons_inj_right b |>.1 heq, fun b' a' h' ↦ ?_⟩
    exact Nat.succ_le_succ_iff.1 (hfirst (b :: b') a' (congrArg (b :: ·) h'))
  · rintro ⟨rfl, hfirst⟩
    refine ⟨rfl, fun b' a' h' ↦ ?_⟩
    cases b' with
    | nil => exact absurd ⟨a', h'.symm⟩ h
    | cons c b' =>
      exact Nat.succ_le_succ (hfirst b' a' (List.cons.inj h').2)

/-- **What `strstr` finds**: the first occurrence. -/
theorem afterText_eq_some :
    afterText text s = some after ↔ ∃ before, FirstAt text s before after := by
  induction s with
  | nil =>
    rw [afterText]
    constructor
    · intro h
      split at h
      · next hnil =>
        obtain rfl := Option.some.inj h
        exact ⟨[], by rw [hnil]; rfl, fun _ _ _ ↦ Nat.zero_le _⟩
      · exact absurd h (by simp)
    · rintro ⟨before, heq, -⟩
      obtain ⟨-, hrest⟩ := List.append_eq_nil_iff.1 heq.symm
      obtain ⟨htext, rfl⟩ := List.append_eq_nil_iff.1 hrest
      exact if_pos htext
  | cons b s ih =>
    rw [afterText]
    split
    · next hocc =>
      obtain ⟨rest, hrest⟩ := hocc
      have hfirst : FirstAt text (b :: s) [] rest := ⟨hrest.symm, fun _ _ _ ↦ Nat.zero_le _⟩
      rw [← hrest, List.drop_left]
      refine ⟨fun h ↦ ⟨[], hrest ▸ Option.some.inj h ▸ hfirst⟩, fun ⟨before, h⟩ ↦ ?_⟩
      exact congrArg some (hfirst.unique (hrest ▸ h)).2
    · next hocc =>
      rw [ih]
      refine ⟨fun ⟨before, h⟩ ↦ ⟨b :: before, (firstAt_cons hocc).2 h⟩, fun ⟨before, h⟩ ↦ ?_⟩
      cases before with
      | nil => exact absurd ⟨after, h.1.symm⟩ hocc
      | cons c before =>
        obtain rfl : b = c := (List.cons.inj h.1).1
        exact ⟨before, (firstAt_cons hocc).1 h⟩

theorem afterText_append_self (text s : List UInt8) : afterText text (text ++ s) = some s :=
  afterText_eq_some.2 ⟨[], rfl, fun _ _ _ ↦ Nat.zero_le _⟩

/-- The text does not start where its first byte does not occur. -/
theorem afterText_append_of_not_mem {c : UInt8} {xs : List UInt8} (h : c ∉ xs) (s : List UInt8) :
    afterText (c :: text) (xs ++ s) = afterText (c :: text) s := by
  induction xs with
  | nil => rfl
  | cons b xs ih =>
    obtain ⟨hne, hmem⟩ := not_or.1 (mt List.mem_cons.2 h)
    rw [List.cons_append, afterText, if_neg fun hpre ↦ hne (List.cons_prefix_cons.1 hpre).1,
      ih hmem]

/-- A text that ends with its first occurrence of another: what follows makes no earlier one. -/
theorem afterText_append (h : afterText text s = some []) (rest : List UInt8) :
    afterText text (s ++ rest) = some rest := by
  obtain ⟨before, hs, hfirst⟩ := afterText_eq_some.1 h
  rw [List.append_nil] at hs
  refine afterText_eq_some.2 ⟨before, by rw [hs, List.append_assoc], fun b a h' ↦ ?_⟩
  rcases Nat.lt_or_ge b.length before.length with hlt | hle
  · -- the occurrence lies within the text
    have hpre : b ++ text <+: s := by
      refine List.prefix_of_prefix_length_le ⟨a, ?_⟩ (List.prefix_append s rest) ?_
      · rw [h', List.append_assoc]
      · rw [hs, List.length_append, List.length_append]
        omega
    obtain ⟨a', ha'⟩ := hpre
    exact hfirst b a' (by rw [← ha', List.append_assoc])
  · exact hle

end Search

/-! ### URLs -/

/-- A URL: `[scheme "://"] host ["/" rest]`. -/
structure TenantUrl where
  scheme : Option (List UInt8)
  host : List UInt8
  rest : Option (List UInt8)
  scheme_ne_nil : ∀ s ∈ scheme, s ≠ []
  scheme_plain : ∀ s ∈ scheme, ':'.toUInt8 ∉ s ∧ '/'.toUInt8 ∉ s
  host_plain : '/'.toUInt8 ∉ host

namespace TenantUrl

/-- The host with a path behind it, or none. -/
def hostWith (u : TenantUrl) (rest : Option (List UInt8)) : List UInt8 :=
  u.host ++ rest.elim [] ('/'.toUInt8 :: ·)

/-- What stands behind the scheme. -/
def hostAndRest (u : TenantUrl) : List UInt8 := u.hostWith u.rest

/-- The text. -/
def text (u : TenantUrl) : List UInt8 := u.scheme.elim [] (· ++ ascii "://") ++ u.hostAndRest

/-- The URL has a scheme; or `://` does not occur in it; or the same host happens to stand behind
its first occurrence, with a path of its own or none. -/
def Clear (u : TenantUrl) : Prop :=
  u.scheme ≠ none ∨
    ∀ before after, FirstAt (ascii "://") u.text before after → ∃ rest, after = u.hostWith rest

theorem takeWhile_hostWith (u : TenantUrl) (rest : Option (List UInt8)) :
    (u.hostWith rest).takeWhile (· ≠ '/'.toUInt8) = u.host := by
  have hhost : ∀ b ∈ u.host, decide (b ≠ '/'.toUInt8) = true := fun b hb ↦
    decide_eq_true fun heq ↦ u.host_plain (heq ▸ hb)
  rw [hostWith, List.takeWhile_append_of_pos hhost]
  cases rest with
  | none => exact List.append_nil _
  | some rest => exact (congrArg _ (List.takeWhile_cons_of_neg (by simp))).trans (List.append_nil _)

/-- A text with the host in front of its first slash. -/
theorem takeWhile_eq_host {u : TenantUrl} {after : List UInt8} :
    after.takeWhile (· ≠ '/'.toUInt8) = u.host ↔ ∃ rest, after = u.hostWith rest := by
  constructor
  · intro h
    have happ := List.takeWhile_append_dropWhile
      (p := fun b ↦ decide (b ≠ '/'.toUInt8)) (l := after)
    cases hdrop : after.dropWhile (· ≠ '/'.toUInt8) with
    | nil => exact ⟨none, by rw [← happ, h, hdrop]; rfl⟩
    | cons c rest =>
      have hc : c = '/'.toUInt8 := by
        have hhead := List.head?_dropWhile_not (fun b ↦ decide (b ≠ '/'.toUInt8)) after
        rw [hdrop] at hhead
        simpa using hhead
      exact ⟨some rest, by rw [← happ, h, hdrop, hc]; rfl⟩
  · rintro ⟨rest, rfl⟩
    exact u.takeWhile_hostWith rest

/-- A scheme is what stands in front of the first `://`. -/
theorem firstAt_scheme {u : TenantUrl} {scheme : List UInt8} (h : u.scheme = some scheme) :
    FirstAt (ascii "://") u.text scheme u.hostAndRest := by
  have htext : u.text = scheme ++ (ascii "://" ++ u.hostAndRest) := by
    rw [text, h, Option.elim_some, List.append_assoc]
  refine ⟨htext, fun b a hba ↦ Nat.le_of_not_lt fun hlt ↦ (u.scheme_plain scheme h).1 ?_⟩
  -- an earlier occurrence would put its colon into the scheme
  have hsep : ascii "://" = ':'.toUInt8 :: ascii "//" := by decide
  have hget : scheme[b.length]? = some ':'.toUInt8 := by
    rw [← List.getElem?_append_left hlt, ← htext, hba, List.getElem?_append_right (Nat.le_refl _),
      Nat.sub_self, hsep]
    rfl
  exact List.mem_of_getElem? hget

/-- **Exactly when the host is found.** -/
theorem urlToHost_eq_iff (u : TenantUrl) : urlToHost u.text = u.host ↔ u.Clear := by
  rw [urlToHost, Clear]
  cases hs : u.scheme with
  | some scheme =>
    rw [afterText_eq_some.2 ⟨scheme, firstAt_scheme hs⟩, Option.getD_some]
    exact iff_of_true (u.takeWhile_hostWith _) (Or.inl (by simp))
  | none =>
    rw [or_iff_right fun hne ↦ hne rfl]
    cases hafter : afterText (ascii "://") u.text with
    | none =>
      have htext : u.text = u.hostAndRest := by rw [text, hs]; rfl
      refine iff_of_true (htext ▸ u.takeWhile_hostWith _) fun before after hfirst ↦ ?_
      exact absurd (hafter.symm.trans (afterText_eq_some.2 ⟨before, hfirst⟩)) (by simp)
    | some after =>
      obtain ⟨before, hfirst⟩ := afterText_eq_some.1 hafter
      rw [Option.getD_some, takeWhile_eq_host]
      refine ⟨fun h before' after' hfirst' ↦ ?_, fun h ↦ h before after hfirst⟩
      exact (hfirst.unique hfirst').2 ▸ h

end TenantUrl

/-! ### The handoff -/

/-- The client is given the host and nothing else, and it is given it unless the URL is empty. -/
def PassesHost (u : TenantUrl) (calls : List HandoffCall) : Prop :=
  (∀ host rc, .setC8yUrl host rc ∈ calls → host = u.host) ∧
    (u.text ≠ [] → ∃ rc, .setC8yUrl u.host rc ∈ calls)

section Handoff

variable {answer : HandoffAnswer} {store : Store}

theorem provC8yLoad_eq_zero (h : (provC8yLoad answer.load store).2.url.cstr ≠ []) :
    (provC8yLoad answer.load store).1 = 0 := by
  rw [provC8yLoad] at h ⊢
  split
  · next hinit =>
    rw [if_pos hinit] at h
    exact absurd (cstr_zero 128) h
  · next hinit =>
    rw [if_neg hinit] at h
    exact if_pos (Or.inl h)

/-- The tenants that a handoff passes on. -/
theorem setC8yUrl_mem_provC8yHandoff {host : List UInt8} {rc : ℤ} :
    .setC8yUrl host rc ∈ (provC8yHandoff answer store).2 ↔
      (provC8yLoad answer.load store).2.url.cstr ≠ [] ∧
        host = urlToHost (provC8yLoad answer.load store).2.url.cstr ∧
          rc = answer.setC8yUrl (urlToHost (provC8yLoad answer.load store).2.url.cstr) := by
  constructor
  · intro h
    rcases mem_provC8yHandoff h with h | h | ⟨-, h⟩
    · rw [handUrl] at h
      split at h
      · exact absurd h List.not_mem_nil
      · next hurl =>
        obtain ⟨rfl, rfl⟩ := HandoffCall.setC8yUrl.inj (List.mem_singleton.1 h)
        exact ⟨hurl, rfl, rfl⟩
    · rw [handOtp] at h
      dsimp only at h
      split_ifs at h <;> simp at h
    · obtain ⟨f, -, heq⟩ := mem_provC8yClear h
      cases heq
  · rintro ⟨hurl, rfl, rfl⟩
    rw [provC8yHandoff]
    dsimp only
    rw [if_neg (not_not.2 (provC8yLoad_eq_zero hurl)), handUrl, if_neg hurl]
    dsimp only
    split
    · exact List.mem_singleton.2 rfl
    · exact List.mem_append_left _ (List.mem_append_left _ (List.mem_singleton.2 rfl))

/-- **Exactly when the host is passed on**, for a URL that has been loaded. -/
theorem passesHost_iff (u : TenantUrl)
    (hload : (provC8yLoad answer.load store).2.url.cstr = u.text) :
    PassesHost u (provC8yHandoff answer store).2 ↔ u.Clear := by
  rw [← u.urlToHost_eq_iff]
  rcases eq_or_ne u.text [] with hnil | hne
  · -- nothing is passed on for the empty URL, and its host is empty
    have hhost : urlToHost u.text = u.host := by
      have hhost : u.hostAndRest = [] := (List.append_eq_nil_iff.1 hnil).2
      rw [hnil, ← u.takeWhile_hostWith u.rest, show u.hostWith u.rest = [] from hhost]
      rfl
    refine iff_of_true ⟨fun host rc h ↦ ?_, fun h ↦ absurd hnil h⟩ hhost
    exact absurd (hload.trans hnil) (setC8yUrl_mem_provC8yHandoff.1 h).1
  · constructor
    · rintro ⟨-, hpassed⟩
      obtain ⟨rc, h⟩ := hpassed hne
      rw [← hload, (setC8yUrl_mem_provC8yHandoff.1 h).2.1]
    · intro hhost
      refine ⟨fun host rc h ↦ ?_, fun _ ↦ ⟨_, setC8yUrl_mem_provC8yHandoff.2 ⟨?_, ?_, rfl⟩⟩⟩
      · rw [(setC8yUrl_mem_provC8yHandoff.1 h).2.1, hload, hhost]
      · exact hload ▸ hne
      · rw [hload, hhost]

/-- A client and a settings subsystem that take and give everything. -/
def obliging (url : List UInt8) : HandoffAnswer where
  load := { init := 0, read := fun _ ↦ url.length }
  setC8yUrl _ := 0
  setEnrollOtp _ := 0
  delete _ := 0

/-- A store with nothing but a URL in it. -/
def storeOfUrl (url : List UInt8) : Store := fun key ↦
  if key = C8yField.url.key then some url else none

/-- A URL without a scheme, whose path names another server: `h/x://evil`. -/
def queryUrl : TenantUrl where
  scheme := none
  host := ascii "h"
  rest := some (ascii "x://evil")
  scheme_ne_nil := by simp
  scheme_plain := by simp
  host_plain := by decide

/-- The device is sent to the other server. -/
theorem not_passesHost_query :
    (provC8yHandoff (obliging queryUrl.text) (storeOfUrl queryUrl.text)).2.head? =
      some (.setC8yUrl (ascii "evil") 0) ∧
    (provC8yLoad (obliging queryUrl.text).load (storeOfUrl queryUrl.text)).2.url.cstr =
      queryUrl.text ∧
    ¬ PassesHost queryUrl
      (provC8yHandoff (obliging queryUrl.text) (storeOfUrl queryUrl.text)).2 := by
  refine ⟨by decide, by decide, fun h ↦ ?_⟩
  have hmem : .setC8yUrl (ascii "evil") 0 ∈
      (provC8yHandoff (obliging queryUrl.text) (storeOfUrl queryUrl.text)).2 := by decide
  exact absurd (h.1 _ _ hmem) (by decide)

/-- `https://h/x`. -/
def plainUrl : TenantUrl where
  scheme := some (ascii "https")
  host := ascii "h"
  rest := some (ascii "x")
  scheme_ne_nil := by
    rintro s ⟨⟩
    decide
  scheme_plain := by
    rintro s ⟨⟩
    decide
  host_plain := by decide

theorem passesHost_iff_plain : PassesHost plainUrl
    (provC8yHandoff (obliging plainUrl.text) (storeOfUrl plainUrl.text)).2 ↔ plainUrl.Clear :=
  passesHost_iff plainUrl (by decide)

end Handoff

end ThinEdge.Settings
