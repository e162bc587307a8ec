import ThinEdge.Lib.Transition
import ThinEdge.Provisioner.FrontEnds

/-!
# Advertising

Whether the provisioner can be found: `adv_wanted`, `adv_running` and `cur_conn` of `ztp.c` and
`improv.c`, as the Bluetooth callbacks, the system work queue and the main loop change them, beside
the radio. The two front ends share every line but one: Improv's `adv_start` brings its service data
up to date first.

A start fails while the connection object of a link that has ended is not recycled yet. So
advertising can be wanted and off with nobody connected, but only as long as the stack still owes
the `recycled` callback or the work queue the run it asked for (`AdvInv.owed`).
-/

namespace ThinEdge.Provisioner

open Transition

/-- The flags of a front end, the work item, the main loop's place, and the radio. -/
structure Advertiser (δ : Type) where
  advWanted : Bool
  advRunning : Bool
  /-- `cur_conn` is not `NULL`. -/
  curConn : Bool
  /-- The data to advertise. -/
  data : δ
  /-- `adv_restart_work` is submitted and has not run. -/
  restartPending : Bool
  idle : Bool
  /-- The main loop is past its success, on its way to the reboot. -/
  leaving : Bool
  /-- What the radio advertises. -/
  onAir : Option δ
  /-- There is a connection. -/
  link : Bool
  /-- A connection has ended and its object has not been recycled. -/
  unrecycled : Bool
  deriving DecidableEq, Repr

section FrontEnd

variable {δ : Type} (refresh : δ → δ)

/-- `adv_refresh_data`: the data is made anew, and the radio told if it advertises. -/
def advRefreshData (updated : Bool) (s : Advertiser δ) : Advertiser δ :=
  let s := { s with data := refresh s.data }
  if s.advRunning && updated then { s with onAir := some s.data } else s

/-- `adv_start`, given whether `bt_le_adv_start` succeeds if it is called. -/
def advStart (ok : Bool) (s : Advertiser δ) : Advertiser δ :=
  if !s.advWanted || s.advRunning || s.curConn then s
  else
    let s := advRefreshData refresh true s
    if ok then { s with onAir := some s.data, advRunning := true } else s

/-- `adv_stop`. -/
def advStop (s : Advertiser δ) : Advertiser δ :=
  let s := { s with advWanted := false }
  if s.advRunning then { s with onAir := none, advRunning := false } else s

/-- `adv_restart_fn`. -/
def advRestartFn (ok : Bool) (s : Advertiser δ) : Advertiser δ := advStart refresh ok s

/-- `on_connected` without an error. -/
def onConnected (s : Advertiser δ) : Advertiser δ := { s with advRunning := false, curConn := true }

/-- `on_disconnected`, of the connection that `cur_conn` holds. -/
def onDisconnected (s : Advertiser δ) : Advertiser δ := { s with curConn := false }

/-- `on_recycled`. -/
def onRecycled (s : Advertiser δ) : Advertiser δ := { s with restartPending := true }

/-- What happens to a front end. `ok` and `updated` are the stack's answers. -/
inductive AdvAction (δ : Type)
  /-- A client connects: connectable advertising ends. -/
  | connected
  | disconnected
  | recycled
  /-- The system work queue runs `adv_restart_work`. -/
  | restartWork (ok : Bool)
  /-- The window has expired, and there is no network to return to. -/
  | expired
  | button (ok : Bool)
  /-- Provisioning has succeeded. -/
  | succeeded
  /-- The front end changes its state and with it what it advertises. -/
  | setState (change : δ → δ) (updated : Bool)

/-- One event; `none` when it cannot happen. There is one connection object, and `bt_le_adv_start`
fails only while it is not recycled. -/
def advStep (s : Advertiser δ) : AdvAction δ → Option (Advertiser δ)
  | .connected =>
    if s.onAir.isSome && !s.link && !s.unrecycled then
      some (onConnected { s with onAir := none, link := true })
    else none
  | .disconnected =>
    if s.link then some (onDisconnected { s with link := false, unrecycled := true }) else none
  | .recycled =>
    if s.unrecycled then some (onRecycled { s with unrecycled := false }) else none
  | .restartWork ok =>
    if s.restartPending && (ok || s.unrecycled) then
      some (advRestartFn refresh ok { s with restartPending := false })
    else none
  | .expired =>
    -- the connection is asked to end as well, and does so in an event of its own
    if !s.idle && !s.leaving then some { advStop s with idle := true } else none
  | .button ok =>
    if s.leaving || !(ok || s.unrecycled) then none
    else if s.idle then some (advStart refresh ok { s with idle := false, advWanted := true })
    else some s
  | .succeeded => if s.leaving then none else some { advStop s with leaving := true }
  | .setState change updated =>
    some (advRefreshData refresh updated { s with data := change s.data })

/-- A front end that is about to start advertising for the first time. -/
def Advertiser.booted (data : δ) : Advertiser δ :=
  ⟨true, false, false, data, false, false, false, none, false, false⟩

end FrontEnd

/-! ### The two front ends -/

/-- `adv_start` of `ztp.c`, whose advertising data is constant. -/
def ztpAdvStart : Bool → Advertiser Unit → Advertiser Unit := advStart id

/-- The advertising front end of `ztp.c`. -/
def ztpAdvStep : Advertiser Unit → AdvAction Unit → Option (Advertiser Unit) := advStep id

/-- The value of an Improv state. -/
def ImprovState.toUInt8 : ImprovState → UInt8
  | .authRequired => 1
  | .authorized => 2
  | .provisioning => 3
  | .provisioned => 4

/-- The service data of Improv, and what it is made from. -/
structure ImprovAdvData where
  curState : ImprovState
  caps : UInt8
  svcData : List UInt8
  deriving DecidableEq, Repr

/-- The assignments of `adv_refresh_data` in `improv.c`. -/
def ImprovAdvData.refresh (d : ImprovAdvData) : ImprovAdvData :=
  { d with svcData := (d.svcData.set 2 d.curState.toUInt8).set 3 d.caps }

/-- `adv_start` of `improv.c`. -/
def improvAdvStart : Bool → Advertiser ImprovAdvData → Advertiser ImprovAdvData :=
  advStart ImprovAdvData.refresh

/-- The advertising front end of `improv.c`. -/
def improvAdvStep :
    Advertiser ImprovAdvData → AdvAction ImprovAdvData → Option (Advertiser ImprovAdvData) :=
  advStep ImprovAdvData.refresh

/-! ### Nothing is lost -/

variable {δ : Type} (refresh : δ → δ) {s t : Advertiser δ} {a : AdvAction δ} {ok : Bool}

/-- With nothing outstanding, the radio advertises exactly if it is wanted and nobody is connected,
and `adv_running` says whether it does. -/
def AdvertisesWhenWanted (s : Advertiser δ) : Prop :=
  s.unrecycled = false → s.restartPending = false →
    (s.onAir.isSome = true ↔ s.advWanted = true ∧ s.link = false) ∧
      s.advRunning = s.onAir.isSome

/-- Advertising is wanted while the window is open and provisioning has not succeeded. -/
def WantedWhileOpen (s : Advertiser δ) : Prop :=
  s.advWanted = true ↔ s.idle = false ∧ s.leaving = false

/-- The flags agree with the radio. -/
structure AdvAgrees (s : Advertiser δ) : Prop where
  running : s.advRunning = s.onAir.isSome
  curConn : s.curConn = s.link
  off_of_link : s.link = true → s.onAir.isSome = false
  recycled_of_link : s.link = true → s.unrecycled = false
  off_of_unwanted : s.advWanted = false → s.onAir.isSome = false

/-- What every event keeps. -/
structure AdvInv (s : Advertiser δ) : Prop extends AdvAgrees s where
  /-- Where advertising is wanted and does not run, somebody still owes a start. -/
  owed : s.advWanted = true → s.link = false → s.onAir.isSome = false →
    s.unrecycled = true ∨ s.restartPending = true

theorem AdvInv.advertisesWhenWanted (h : AdvInv s) : AdvertisesWhenWanted s := by
  intro hrecycled hwork
  refine ⟨⟨fun hair ↦ ⟨?_, ?_⟩, fun ⟨hwanted, hlink⟩ ↦ ?_⟩, h.running⟩
  · rcases hwanted : s.advWanted with - | -
    · exact absurd hair (by simp [h.off_of_unwanted hwanted])
    · rfl
  · rcases hlink : s.link with - | -
    · rfl
    · exact absurd hair (by simp [h.off_of_link hlink])
  · rcases hair : s.onAir.isSome with - | -
    · have howed := h.owed hwanted hlink hair
      rw [hrecycled, hwork] at howed
      exact absurd howed (by decide)
    · rfl

/-- New data changes nothing about whether the radio advertises. -/
theorem advRefreshData_frame (updated : Bool) (h : AdvAgrees s) :
    ∃ data onAir, advRefreshData refresh updated s = { s with data := data, onAir := onAir } ∧
      onAir.isSome = s.onAir.isSome := by
  rw [advRefreshData]
  dsimp only
  split
  · next hrunning =>
    rw [Bool.and_eq_true, h.running] at hrunning
    exact ⟨refresh s.data, some (refresh s.data), rfl, hrunning.1.symm⟩
  · exact ⟨refresh s.data, s.onAir, rfl, rfl⟩

theorem AdvAgrees.congr {onAir : Option δ} (h : AdvAgrees s) (data : δ)
    (hair : onAir.isSome = s.onAir.isSome) :
    AdvAgrees { s with data := data, onAir := onAir } where
  running := h.running.trans hair.symm
  curConn := h.curConn
  off_of_link hlink := hair.trans (h.off_of_link hlink)
  recycled_of_link := h.recycled_of_link
  off_of_unwanted hwanted := hair.trans (h.off_of_unwanted hwanted)

theorem AdvInv.advRefreshData (updated : Bool) (h : AdvInv s) :
    AdvInv (advRefreshData refresh updated s) := by
  obtain ⟨data, onAir, heq, hair⟩ :=
    advRefreshData_frame refresh updated h.toAdvAgrees
  rw [heq]
  exact ⟨h.toAdvAgrees.congr data hair, fun hwanted hlink hoff ↦ h.owed hwanted hlink (hair ▸ hoff)⟩

/-- **A start.** It leaves nothing owed, unless the stack may refuse it. -/
theorem AdvAgrees.advStart (h : AdvAgrees s) (hok : ok = true ∨ s.unrecycled = true) :
    AdvInv (advStart refresh ok s) := by
  rw [Provisioner.advStart]
  split
  · next hskip =>
    -- there is nothing to start
    refine ⟨h, fun hwanted hlink hoff ↦ ?_⟩
    rw [hwanted, h.curConn, hlink, h.running, hoff] at hskip
    exact absurd hskip (by decide)
  · next hgo =>
    simp only [Bool.or_eq_true, Bool.not_eq_true', not_or, Bool.not_eq_true,
      Bool.not_eq_false] at hgo
    obtain ⟨⟨hwanted, hrunning⟩, hconn⟩ := hgo
    obtain ⟨data, onAir, heq, hair⟩ := advRefreshData_frame refresh true h
    have hagrees := h.congr data hair
    rw [heq]
    dsimp only
    split
    · refine ⟨⟨rfl, hagrees.curConn, fun hlink ↦ ?_, hagrees.recycled_of_link, fun hno ↦ ?_⟩,
        fun _ _ hoff ↦ absurd hoff (by simp)⟩
      · have hlink' : s.link = true := hlink
        rw [← h.curConn, hconn] at hlink'
        exact absurd hlink' (by decide)
      · have hno' : s.advWanted = false := hno
        rw [hwanted] at hno'
        exact absurd hno' (by decide)
    · next hno =>
      exact ⟨hagrees, fun _ _ _ ↦ Or.inl (hok.resolve_left hno)⟩

/-- **A stop.** Nothing is wanted after it, and nothing owed. -/
theorem AdvInv.advStop (h : AdvInv s) : AdvInv (advStop s) := by
  rw [Provisioner.advStop]
  dsimp only
  split
  · exact ⟨⟨rfl, h.curConn, fun _ ↦ rfl, h.recycled_of_link, fun _ ↦ rfl⟩,
      fun hwanted ↦ absurd hwanted (by simp)⟩
  · next hrunning =>
    have hoff : s.onAir.isSome = false := by rwa [h.running, Bool.not_eq_true] at hrunning
    exact ⟨⟨h.running, h.curConn, h.off_of_link, h.recycled_of_link, fun _ ↦ hoff⟩,
      fun hwanted ↦ absurd hwanted (by simp)⟩

/-- **The step lemma.** -/
theorem AdvInv.step (h : AdvInv s) (hst : advStep refresh s a = some t) : AdvInv t := by
  cases a with
  | connected =>
    simp only [advStep, Option.ite_none_right_eq_some, Option.some.injEq, Bool.and_eq_true,
      Bool.not_eq_true'] at hst
    obtain ⟨⟨-, hrecycled⟩, rfl⟩ := hst
    exact ⟨⟨rfl, rfl, fun _ ↦ rfl, fun _ ↦ hrecycled, fun _ ↦ rfl⟩,
      fun _ hlink ↦ absurd hlink (by simp [onConnected])⟩
  | disconnected =>
    simp only [advStep, Option.ite_none_right_eq_some, Option.some.injEq] at hst
    obtain ⟨-, rfl⟩ := hst
    exact ⟨⟨h.running, rfl, fun hlink ↦ absurd hlink (by simp [onDisconnected]),
      fun hlink ↦ absurd hlink (by simp [onDisconnected]), h.off_of_unwanted⟩,
      fun _ _ _ ↦ Or.inl rfl⟩
  | recycled =>
    simp only [advStep, Option.ite_none_right_eq_some, Option.some.injEq] at hst
    obtain ⟨-, rfl⟩ := hst
    exact ⟨⟨h.running, h.curConn, h.off_of_link, fun _ ↦ rfl, h.off_of_unwanted⟩,
      fun _ _ _ ↦ Or.inr rfl⟩
  | restartWork ok =>
    simp only [advStep, Option.ite_none_right_eq_some, Option.some.injEq, Bool.and_eq_true,
      Bool.or_eq_true] at hst
    obtain ⟨⟨-, hok⟩, rfl⟩ := hst
    -- the run that was owed is the start itself
    exact AdvAgrees.advStart refresh
      ⟨h.running, h.curConn, h.off_of_link, h.recycled_of_link, h.off_of_unwanted⟩ hok
  | expired =>
    simp only [advStep, Option.ite_none_right_eq_some, Option.some.injEq] at hst
    obtain ⟨-, rfl⟩ := hst
    have hstop := h.advStop
    exact ⟨⟨hstop.running, hstop.curConn, hstop.off_of_link, hstop.recycled_of_link,
      hstop.off_of_unwanted⟩, hstop.owed⟩
  | button ok =>
    simp only [advStep, Option.ite_none_left_eq_some] at hst
    obtain ⟨hgo, hst⟩ := hst
    simp only [Bool.or_eq_true, Bool.not_eq_true', Bool.or_eq_false_iff, not_or, not_and_or,
      Bool.not_eq_false] at hgo
    split at hst
    · obtain rfl := Option.some.inj hst
      exact AdvAgrees.advStart refresh ⟨h.running, h.curConn, h.off_of_link, h.recycled_of_link,
        fun hno ↦ absurd hno (by simp)⟩ hgo.2
    · obtain rfl := Option.some.inj hst
      exact h
  | succeeded =>
    simp only [advStep, Option.ite_none_left_eq_some, Option.some.injEq] at hst
    obtain ⟨-, rfl⟩ := hst
    have hstop := h.advStop
    exact ⟨⟨hstop.running, hstop.curConn, hstop.off_of_link, hstop.recycled_of_link,
      hstop.off_of_unwanted⟩, hstop.owed⟩
  | setState change updated =>
    obtain rfl := Option.some.inj hst
    have hdata : AdvInv { s with data := change s.data } :=
      ⟨⟨h.running, h.curConn, h.off_of_link, h.recycled_of_link, h.off_of_unwanted⟩, h.owed⟩
    exact hdata.advRefreshData refresh updated

/-! ### What is wanted -/

/-- Neither new data nor a start changes what is wanted, and from when to when. -/
structure SameWish (s t : Advertiser δ) : Prop where
  advWanted : t.advWanted = s.advWanted
  idle : t.idle = s.idle
  leaving : t.leaving = s.leaving

theorem sameWish_advRefreshData (updated : Bool) (s : Advertiser δ) :
    SameWish s (advRefreshData refresh updated s) := by
  rw [advRefreshData]
  dsimp only
  split <;> exact ⟨rfl, rfl, rfl⟩

theorem sameWish_advStart (ok : Bool) (s : Advertiser δ) : SameWish s (advStart refresh ok s) := by
  have hdata := sameWish_advRefreshData refresh true s
  rw [advStart]
  split
  · exact ⟨rfl, rfl, rfl⟩
  dsimp only
  split
  · exact ⟨hdata.advWanted, hdata.idle, hdata.leaving⟩
  · exact hdata

theorem WantedWhileOpen.congr (h : WantedWhileOpen s) (hsame : SameWish s t) :
    WantedWhileOpen t := by
  rwa [WantedWhileOpen, hsame.advWanted, hsame.idle, hsame.leaving]

theorem WantedWhileOpen.step (h : WantedWhileOpen s) (hst : advStep refresh s a = some t) :
    WantedWhileOpen t := by
  have hstop : (advStop s).advWanted = false := by
    rw [advStop]
    dsimp only
    split <;> rfl
  cases a with
  | connected | disconnected | recycled =>
    simp only [advStep, Option.ite_none_right_eq_some, Option.some.injEq] at hst
    obtain ⟨-, rfl⟩ := hst
    exact h
  | restartWork ok =>
    simp only [advStep, Option.ite_none_right_eq_some, Option.some.injEq] at hst
    obtain ⟨-, rfl⟩ := hst
    have hrun : WantedWhileOpen { s with restartPending := false } := h
    exact hrun.congr (sameWish_advStart refresh ok _)
  -- the end of the window and a success stop it, a press starts it again
  | expired =>
    simp only [advStep, Option.ite_none_right_eq_some, Option.some.injEq] at hst
    obtain ⟨-, rfl⟩ := hst
    exact iff_of_false (ne_true_of_eq_false hstop) fun hopen ↦
      absurd hopen.1.symm Bool.false_ne_true
  | button ok =>
    simp only [advStep, Option.ite_none_left_eq_some, Bool.or_eq_true, not_or] at hst
    obtain ⟨⟨hleaving, -⟩, hst⟩ := hst
    split at hst
    · obtain rfl := Option.some.inj hst
      have hopen : WantedWhileOpen { s with idle := false, advWanted := true } :=
        iff_of_true rfl ⟨rfl, Bool.eq_false_iff.2 hleaving⟩
      exact hopen.congr (sameWish_advStart refresh ok _)
    · obtain rfl := Option.some.inj hst
      exact h
  | succeeded =>
    simp only [advStep, Option.ite_none_left_eq_some, Option.some.injEq] at hst
    obtain ⟨-, rfl⟩ := hst
    exact iff_of_false (ne_true_of_eq_false hstop) fun hopen ↦
      absurd hopen.2.symm Bool.false_ne_true
  | setState change updated =>
    obtain rfl := Option.some.inj hst
    have hdata : WantedWhileOpen { s with data := change s.data } := h
    exact hdata.congr (sameWish_advRefreshData refresh updated _)

/-! ### Runs -/

theorem advAgrees_booted (data : δ) : AdvAgrees (Advertiser.booted data) :=
  ⟨rfl, rfl, fun _ ↦ rfl, fun _ ↦ rfl, fun _ ↦ rfl⟩

theorem advertisesWhenWanted_run (data : δ) (as : List (AdvAction δ)) :
    Throughout (advStep refresh) (fun s ↦ AdvertisesWhenWanted s ∧ WantedWhileOpen s)
      (advStart refresh true (.booted data)) as := by
  have hinv := (advAgrees_booted data).advStart refresh (Or.inl rfl)
  have hwish : WantedWhileOpen (advStart refresh true (.booted data)) := by
    have hbooted : WantedWhileOpen (Advertiser.booted data) := iff_of_true rfl ⟨rfl, rfl⟩
    exact hbooted.congr (sameWish_advStart refresh true _)
  have hstep : ∀ s a t, AdvInv s ∧ WantedWhileOpen s → advStep refresh s a = some t →
      AdvInv t ∧ WantedWhileOpen t := fun s a t h hst ↦
    ⟨h.1.step refresh hst, h.2.step refresh hst⟩
  exact (throughout_of_forall hstep ⟨hinv, hwish⟩ as).imp fun _ h ↦
    ⟨h.1.advertisesWhenWanted, h.2⟩

/-- **Advertising is never lost and never left on.** In both front ends, in every state of every run
in which no `recycled` callback and no restart is outstanding, the radio advertises exactly if
`adv_wanted` is set and there is no connection, and `adv_running` says whether it does. It is set
from the start until the window expires, and again from a press, until provisioning succeeds. -/
theorem advertisesWhenWanted_throughout (data : ImprovAdvData)
    (ztp : List (AdvAction Unit)) (improv : List (AdvAction ImprovAdvData)) :
    Throughout ztpAdvStep (fun s ↦ AdvertisesWhenWanted s ∧ WantedWhileOpen s)
        (ztpAdvStart true (.booted ())) ztp ∧
      Throughout improvAdvStep (fun s ↦ AdvertisesWhenWanted s ∧ WantedWhileOpen s)
        (improvAdvStart true (.booted data)) improv :=
  ⟨advertisesWhenWanted_run id () ztp, advertisesWhenWanted_run ImprovAdvData.refresh data improv⟩

/-- A start that is refused before the connection is recycled is made up for by the work queue. -/
example :
    (exec ztpAdvStep (ztpAdvStart true (.booted ())) [.connected, .expired, .disconnected,
      .button false, .recycled, .restartWork true]).map (·.onAir) = some (some ()) := by
  decide

end ThinEdge.Provisioner
