import Mathlib.Data.List.Induction
import Mathlib.Data.List.TakeWhile

/-!
# The outage detector of the soak runs

The main loop of `scripts/soak/poll.py` probes the device once a round, and keeps with a handful of
variables what it needs to report outages: how many probes have failed in a row, when the first of
them did, the outage in progress. `outagesFrom` says what an outage is without them: a longest block
of failed probes after a successful one, of at least `--fail-threshold` probes. `poll_eq` is the
theorem that the loop reports those, in order and with their data, however the probes come out and
whenever the run ends.

Times and uptimes are floating-point numbers in the script. They are types of their own here, and
the few operations on them are parameters (`PollCfg`).
-/

namespace ThinEdge.Soak

/-- The options of a run and the script's arithmetic on times `T`, durations `D` and uptimes `U`. -/
structure PollCfg (T D U : Type) where
  /-- `--fail-threshold`. -/
  failThreshold : ℤ
  /-- `--stop-after-outages`. -/
  stopAfterOutages : ℤ
  /-- `round(b - a, 1)`. -/
  between : T → T → D
  /-- `duration_s <= args.recovery_window`. -/
  recovered : D → Bool
  /-- `now - cur["_t"] >= args.recovery_window`. -/
  windowOver : T → T → Bool
  /-- `now >= t_end`. -/
  ended : T → Bool
  /-- `uptime + 1 < last_ok_uptime`. -/
  wentBack : U → U → Bool
  /-- `uptime < cur["uptime_before_s"]`. -/
  below : U → U → Bool

variable {T D U : Type}

/-- What one round of the loop observes. -/
structure Round (T U : Type) where
  tick : T
  /-- The uptime that the probe returned, if it returned one; `none` when the probe raised. -/
  probe : Option (Option U)
  pingOk : Bool
  /-- The time at the end of the round. -/
  now : T

/-- The probe succeeded. -/
def Round.ok (r : Round T U) : Bool := r.probe.isSome

/-- An outage when it is detected. -/
structure Opening (T D U : Type) where
  /-- `_t`, and `start`. -/
  start : T
  ttfSinceRunStart : D
  ttfSinceLastRecovery : D
  uptimeBefore : Option U
  pingAtDetection : Bool
  deriving DecidableEq

/-- An outage in the summary. -/
structure Outage (T D U : Type) extends Opening T D U where
  /-- `end` is a time. -/
  hasEnd : Bool
  duration : D
  recovered : Bool
  uptimeAfter : Option U
  rebooted : Bool
  deriving DecidableEq

/-! ### The loop -/

/-- The variables of the loop. -/
structure PollState (T D U : Type) where
  probes : ℕ
  probeOk : ℕ
  pings : ℕ
  pingOk : ℕ
  outages : List (Outage T D U)
  fails : ℕ
  firstFailAt : Option T
  cur : Option (Opening T D U)
  lastOkAt : Option T
  firstOkAt : Option T
  lastOkUptime : Option U
  lastRecoveryAt : T
  /-- The uptimes before and after each reboot that was seen. -/
  rebootsSeen : List (U × U)

/-- Before the first round. -/
def PollState.start (tStart : T) : PollState T D U where
  probes := 0
  probeOk := 0
  pings := 0
  pingOk := 0
  outages := []
  fails := 0
  firstFailAt := none
  cur := none
  lastOkAt := none
  firstOkAt := none
  lastOkUptime := none
  lastRecoveryAt := tStart
  rebootsSeen := []

variable (cfg : PollCfg T D U) (tStart : T)

/-- The record of an outage that a successful probe ends. -/
def Opening.close (o : Opening T D U) (tick : T) (uptime : Option U) : Outage T D U where
  toOpening := o
  hasEnd := true
  duration := cfg.between o.start tick
  recovered := cfg.recovered (cfg.between o.start tick)
  uptimeAfter := uptime
  rebooted :=
    match uptime, o.uptimeBefore with
    | some after, some before => cfg.below after before
    | _, _ => false

/-- The record of an outage that the end of the run cuts off. -/
def Opening.cutOff (o : Opening T D U) (tStop : T) : Outage T D U where
  toOpening := o
  hasEnd := false
  duration := cfg.between o.start tStop
  recovered := false
  uptimeAfter := none
  rebooted := false

/-- The counters of a round. -/
def PollState.count (s : PollState T D U) (r : Round T U) : PollState T D U :=
  { s with
    probes := s.probes + 1
    probeOk := s.probeOk + if r.ok then 1 else 0
    pings := s.pings + 1
    pingOk := s.pingOk + if r.pingOk then 1 else 0 }

/-- The reboot that an uptime tells of, if it is lower than the last one. -/
def rebootOf (uptime lastOkUptime : Option U) : List (U × U) :=
  match uptime, lastOkUptime with
  | some u, some last => if cfg.wentBack u last then [(last, u)] else []
  | _, _ => []

/-- The outage in progress is over. -/
def PollState.endOutage (s : PollState T D U) (r : Round T U) (uptime : Option U) :
    PollState T D U :=
  match s.cur with
  | some o =>
    { s with
      outages := s.outages ++ [o.close cfg r.tick uptime], cur := none, lastRecoveryAt := r.tick }
  | none => s

/-- A round whose probe returned. -/
def PollState.success (s : PollState T D U) (r : Round T U) (uptime : Option U) :
    PollState T D U :=
  let s :=
    { s with rebootsSeen := s.rebootsSeen ++ rebootOf cfg uptime s.lastOkUptime }
  let s := s.endOutage cfg r uptime
  { s with
    fails := 0
    firstFailAt := none
    firstOkAt := s.firstOkAt.or (some r.tick)
    lastOkAt := some r.tick
    lastOkUptime := uptime.or s.lastOkUptime }

/-- One more probe has failed. -/
def PollState.fail (s : PollState T D U) (r : Round T U) : PollState T D U :=
  { s with
    fails := s.fails + 1
    firstFailAt := if s.fails + 1 = 1 then some r.tick else s.firstFailAt }

/-- An outage is detected with the probe that reaches the threshold, unless one is in progress or
the device has never answered. -/
def PollState.detect (s : PollState T D U) (r : Round T U) : PollState T D U :=
  if s.fails = cfg.failThreshold ∧ s.cur.isNone ∧ s.lastOkAt.isSome then
    { s with
      cur := s.firstFailAt.map fun first ↦
        { start := first
          ttfSinceRunStart := cfg.between tStart first
          ttfSinceLastRecovery := cfg.between s.lastRecoveryAt first
          uptimeBefore := s.lastOkUptime
          pingAtDetection := r.pingOk } }
  else s

/-- A round whose probe raised. -/
def PollState.failure (s : PollState T D U) (r : Round T U) : PollState T D U :=
  (s.fail r).detect cfg tStart r

/-- One round of the loop, up to where it may leave. -/
def pollRound (s : PollState T D U) (r : Round T U) : PollState T D U :=
  let s := s.count r
  match r.probe with
  | some uptime => s.success cfg r uptime
  | none => s.failure cfg tStart r

/-- The loop is left after a round: enough outages have been seen, or the time is over and no outage
is in progress, or the one in progress has had its time to recover. -/
def leaves (s : PollState T D U) (r : Round T U) : Bool :=
  (cfg.stopAfterOutages ≠ 0 ∧ cfg.stopAfterOutages ≤ s.outages.length) ||
    cfg.ended r.now &&
      match s.cur with
      | none => true
      | some o => cfg.windowOver o.start r.now

/-- The loop over the rounds until it is left, or interrupted. -/
def pollLoop : PollState T D U → List (Round T U) → PollState T D U
  | s, [] => s
  | s, r :: rs =>
    let s := pollRound cfg tStart s r
    if leaves cfg s r then s else pollLoop s rs

/-- The rounds that the loop takes. -/
def taken : PollState T D U → List (Round T U) → List (Round T U)
  | _, [] => []
  | s, r :: rs =>
    let s := pollRound cfg tStart s r
    if leaves cfg s r then [r] else r :: taken s rs

/-- The outages of the summary: those that ended, and the one that the end of the run cuts off. -/
def PollState.summary (s : PollState T D U) (tStop : T) : List (Outage T D U) :=
  match s.cur with
  | some o => s.outages ++ [o.cutOff cfg tStop]
  | none => s.outages

/-- The outages that a run reports. -/
def poll (rounds : List (Round T U)) (tStop : T) : List (Outage T D U) :=
  (pollLoop cfg tStart (.start tStart) rounds).summary cfg tStop

/-! ### What an outage is -/

/-- The probe failed. -/
def Round.failed (r : Round T U) : Bool := !r.ok

/-- A block of failed probes is long enough for an outage. -/
def IsOutage (block : List (Round T U)) : Prop :=
  0 < cfg.failThreshold ∧ cfg.failThreshold ≤ block.length

instance (block : List (Round T U)) : Decidable (IsOutage cfg block) :=
  inferInstanceAs (Decidable (_ ∧ _))

/-- The outage that begins with a failed probe, given what was last known of the device. The ping is
the one of the probe that reaches the threshold. -/
def openingOf (lastUptime : Option U) (lastRecovery : T) (r : Round T U)
    (block : List (Round T U)) : Opening T D U where
  start := r.tick
  ttfSinceRunStart := cfg.between tStart r.tick
  ttfSinceLastRecovery := cfg.between lastRecovery r.tick
  uptimeBefore := lastUptime
  pingAtDetection := (block[(cfg.failThreshold - 1).toNat]?.map (·.pingOk)).getD false

/-- The outages of rounds that follow a successful probe: the longest blocks of failed probes that
are long enough, each from its first probe to the next successful one. -/
def outagesFrom (tStop : T) : Option U → T → List (Round T U) → List (Outage T D U)
  | _, _, [] => []
  | lastUptime, lastRecovery, r :: rs =>
    match r.probe with
    | some uptime => outagesFrom tStop (uptime.or lastUptime) lastRecovery rs
    | none =>
      let block := r :: rs.takeWhile Round.failed
      let o := openingOf cfg tStart lastUptime lastRecovery r block
      match _h : rs.dropWhile Round.failed with
      | [] => if IsOutage cfg block then [o.cutOff cfg tStop] else []
      | e :: rest =>
        if IsOutage cfg block then
          o.close cfg e.tick e.probe.join ::
            outagesFrom tStop (e.probe.join.or lastUptime) e.tick rest
        else outagesFrom tStop (e.probe.join.or lastUptime) lastRecovery rest
termination_by _ _ l => l.length
decreasing_by
  · exact Nat.lt_succ_self _
  all_goals
    have := congrArg List.length _h
    have := (List.dropWhile_suffix Round.failed (l := rs)).length_le
    simp only [List.length_cons] at *
    omega

/-- The outages of a run. What fails before the first successful probe is none. -/
def outagesOf (tStop : T) (rounds : List (Round T U)) : List (Outage T D U) :=
  match rounds.dropWhile Round.failed with
  | [] => []
  | r :: rs => outagesFrom cfg tStart tStop r.probe.join tStart rs

/-! ### What the loop's variables stand for -/

variable {cfg tStart} {s : PollState T D U}

/-- The state after a successful probe. -/
structure Up (s : PollState T D U) : Prop where
  fails : s.fails = 0
  firstFailAt : s.firstFailAt = none
  cur : s.cur = none
  lastOkAt : s.lastOkAt.isSome

variable (cfg tStart) in
/-- The state after a block of failed probes, the first of which is `r`. -/
structure Down (s : PollState T D U) (r : Round T U) (rs : List (Round T U))
    (t : PollState T D U) : Prop where
  fails : t.fails = rs.length + 1
  firstFailAt : t.firstFailAt = some r.tick
  cur : t.cur = if IsOutage cfg (r :: rs) then
    some (openingOf cfg tStart s.lastOkUptime s.lastRecoveryAt r (r :: rs)) else none
  outages : t.outages = s.outages
  lastOkAt : t.lastOkAt = s.lastOkAt
  lastOkUptime : t.lastOkUptime = s.lastOkUptime
  lastRecoveryAt : t.lastRecoveryAt = s.lastRecoveryAt

theorem probe_eq_none {r : Round T U} (h : r.failed = true) : r.probe = none := by
  rw [Round.failed, Round.ok] at h
  cases hp : r.probe with
  | none => rfl
  | some u => simp [hp] at h

theorem pollRound_of_failed {r : Round T U} (h : r.failed = true) :
    pollRound cfg tStart s r = (s.count r).failure cfg tStart r := by
  rw [pollRound, probe_eq_none h]

/-- What a failed probe leaves alone. -/
structure FailureFrame (s t : PollState T D U) : Prop where
  outages : t.outages = s.outages
  lastOkAt : t.lastOkAt = s.lastOkAt
  lastOkUptime : t.lastOkUptime = s.lastOkUptime
  lastRecoveryAt : t.lastRecoveryAt = s.lastRecoveryAt

theorem detect_frame (s : PollState T D U) (r : Round T U) :
    FailureFrame s (s.detect cfg tStart r) := by
  rw [PollState.detect]
  split
  · exact ⟨rfl, rfl, rfl, rfl⟩
  · exact ⟨rfl, rfl, rfl, rfl⟩

theorem fails_detect (s : PollState T D U) (r : Round T U) :
    (s.detect cfg tStart r).fails = s.fails ∧
      (s.detect cfg tStart r).firstFailAt = s.firstFailAt := by
  rw [PollState.detect]
  split
  · exact ⟨rfl, rfl⟩
  · exact ⟨rfl, rfl⟩

theorem cur_detect (s : PollState T D U) (r : Round T U) :
    (s.detect cfg tStart r).cur =
      if s.fails = cfg.failThreshold ∧ s.cur.isNone ∧ s.lastOkAt.isSome then
        s.firstFailAt.map fun first ↦
          { start := first
            ttfSinceRunStart := cfg.between tStart first
            ttfSinceLastRecovery := cfg.between s.lastRecoveryAt first
            uptimeBefore := s.lastOkUptime
            pingAtDetection := r.pingOk }
      else s.cur := by
  rw [PollState.detect]
  split
  · rfl
  · rfl

/-- The first failed probe after a successful one. -/
theorem Up.down (hs : Up s) {r : Round T U} (h : r.failed = true) :
    Down cfg tStart s r [] (pollRound cfg tStart s r) := by
  obtain ⟨hfails, hfirst⟩ := @fails_detect _ _ _ cfg tStart ((s.count r).fail r) r
  have hframe := @detect_frame _ _ _ cfg tStart ((s.count r).fail r) r
  have hone : ((s.count r).fail r).fails = 1 := congrArg (· + 1) hs.fails
  have hat : ((s.count r).fail r).firstFailAt = some r.tick := if_pos hone
  rw [pollRound_of_failed h]
  refine ⟨hfails.trans hone, hfirst.trans hat, ?_, hframe.outages, hframe.lastOkAt,
    hframe.lastOkUptime, hframe.lastRecoveryAt⟩
  rw [PollState.failure, cur_detect, hone, hat]
  by_cases hth : cfg.failThreshold = 1
  · rw [if_pos ⟨hth.symm, by rw [show ((s.count r).fail r).cur = s.cur from rfl, hs.cur]; rfl,
      hs.lastOkAt⟩, if_pos ⟨by rw [hth]; decide, by simp [hth]⟩, openingOf, hth]
    rfl
  · rw [if_neg fun hcond ↦ hth hcond.1.symm, if_neg fun hout ↦ ?_]
    · exact hs.cur
    · have hle := hout.2
      have hpos := hout.1
      rw [List.length_singleton] at hle
      omega

/-- An outage keeps its data while it goes on. -/
theorem openingOf_append {r r' : Round T U} {rs : List (Round T U)}
    (hout : IsOutage cfg (r :: rs)) (lastUptime : Option U) (lastRecovery : T) :
    openingOf cfg tStart lastUptime lastRecovery r (r :: (rs ++ [r'])) =
      openingOf cfg tStart lastUptime lastRecovery r (r :: rs) := by
  have hlt : (cfg.failThreshold - 1).toNat < (r :: rs).length := by
    have := hout.1
    have := hout.2
    omega
  rw [openingOf, openingOf, ← List.cons_append, List.getElem?_append_left hlt]

/-- One more failed probe. -/
theorem Down.down (hs : s.lastOkAt.isSome) {t : PollState T D U} {r r' : Round T U}
    {rs : List (Round T U)} (ht : Down cfg tStart s r rs t) (h : r'.failed = true) :
    Down cfg tStart s r (rs ++ [r']) (pollRound cfg tStart t r') := by
  obtain ⟨hfails, hfirst⟩ := @fails_detect _ _ _ cfg tStart ((t.count r').fail r') r'
  have hframe := @detect_frame _ _ _ cfg tStart ((t.count r').fail r') r'
  have hlen : ((t.count r').fail r').fails = (rs ++ [r']).length + 1 := by
    rw [List.length_append]
    exact congrArg (· + 1) ht.fails
  have hat : ((t.count r').fail r').firstFailAt = some r.tick := by
    refine (if_neg ?_).trans ht.firstFailAt
    show ¬ t.fails + 1 = 1
    rw [ht.fails]
    omega
  rw [pollRound_of_failed h]
  refine ⟨hfails.trans hlen, hfirst.trans hat, ?_, hframe.outages.trans ht.outages,
    hframe.lastOkAt.trans ht.lastOkAt, hframe.lastOkUptime.trans ht.lastOkUptime,
    hframe.lastRecoveryAt.trans ht.lastRecoveryAt⟩
  have hcur : ((t.count r').fail r').cur = t.cur := rfl
  have hok : ((t.count r').fail r').lastOkAt.isSome := by
    rw [show ((t.count r').fail r').lastOkAt = t.lastOkAt from rfl, ht.lastOkAt]
    exact hs
  have hmore : (r :: (rs ++ [r'])).length = rs.length + 2 := by simp
  have hless : (r :: rs).length = rs.length + 1 := rfl
  rw [PollState.failure, cur_detect, hlen, hat, hcur]
  by_cases hout : IsOutage cfg (r :: rs)
  · -- the outage was detected before
    have hout' : IsOutage cfg (r :: (rs ++ [r'])) := ⟨hout.1, by have := hout.2; omega⟩
    rw [ht.cur, if_pos hout, if_neg (by simp), if_pos hout', openingOf_append hout]
  · rw [ht.cur, if_neg hout]
    by_cases hth : ((rs ++ [r']).length + 1 : ℕ) = cfg.failThreshold
    · -- this probe reaches the threshold
      have hlength : (rs ++ [r']).length = rs.length + 1 := by simp
      have hout' : IsOutage cfg (r :: (rs ++ [r'])) := ⟨by omega, by omega⟩
      have hlast : (r :: (rs ++ [r']))[(cfg.failThreshold - 1).toNat]? = some r' := by
        have hindex : (cfg.failThreshold - 1).toNat = (r :: rs).length := by omega
        rw [hindex, ← List.cons_append, List.getElem?_append_right (Nat.le_refl _), Nat.sub_self]
        rfl
      rw [if_pos ⟨hth, rfl, hok⟩, if_pos hout', openingOf, hlast]
      show some _ = some _
      rw [show ((t.count r').fail r').lastRecoveryAt = t.lastRecoveryAt from rfl,
        show ((t.count r').fail r').lastOkUptime = t.lastOkUptime from rfl, ht.lastRecoveryAt,
        ht.lastOkUptime]
      rfl
    · -- still short of the threshold
      rw [if_neg fun hcond ↦ hth hcond.1, if_neg fun hout' ↦ hout ⟨hout'.1, ?_⟩]
      have := hout'.2
      have hlength : (rs ++ [r']).length = rs.length + 1 := by simp
      omega

/-- A block of failed probes after a successful one. -/
theorem Up.foldl_down (hs : Up s) {r : Round T U} (hr : r.failed = true) {rs : List (Round T U)}
    (hrs : ∀ x ∈ rs, x.failed = true) :
    Down cfg tStart s r rs ((r :: rs).foldl (pollRound cfg tStart) s) := by
  induction rs using List.reverseRecOn with
  | nil => exact hs.down hr
  | append_singleton rs x ih =>
    rw [← List.cons_append, List.foldl_append]
    exact (ih fun y hy ↦ hrs y (List.mem_append_left _ hy)).down hs.lastOkAt
      (hrs x (List.mem_append_right _ List.mem_cons_self))

/-- What a successful probe does. -/
structure Recovers (cfg : PollCfg T D U) (s : PollState T D U) (r : Round T U)
    (uptime : Option U) (t : PollState T D U) : Prop where
  up : Up t
  outages : t.outages = s.outages ++ (s.cur.map fun o ↦ o.close cfg r.tick uptime).toList
  lastOkUptime : t.lastOkUptime = uptime.or s.lastOkUptime
  lastRecoveryAt : t.lastRecoveryAt = if s.cur.isSome then r.tick else s.lastRecoveryAt

theorem pollRound_of_ok {r : Round T U} {uptime : Option U} (h : r.probe = some uptime) :
    Recovers cfg s r uptime (pollRound cfg tStart s r) := by
  rw [pollRound, h]
  show Recovers cfg s r uptime ((s.count r).success cfg r uptime)
  rw [PollState.success, PollState.endOutage, PollState.count]
  rcases hs : s.cur with - | o
  · exact ⟨⟨rfl, rfl, rfl, rfl⟩, by rw [hs]; exact (List.append_nil _).symm, rfl, by rw [hs]; rfl⟩
  · exact ⟨⟨rfl, rfl, rfl, rfl⟩, by rw [hs]; rfl, rfl, by rw [hs]; rfl⟩

/-- The rounds after a failed probe: more of them, and then a successful one, if any. -/
theorem takeWhile_failed (rs : List (Round T U)) :
    (∀ x ∈ rs.takeWhile Round.failed, x.failed = true) ∧
      ∀ e rest, rs.dropWhile Round.failed = e :: rest → ∃ uptime, e.probe = some uptime := by
  refine ⟨fun x hx ↦ List.mem_takeWhile_imp hx, fun e rest h ↦ ?_⟩
  have hne : rs.dropWhile Round.failed ≠ [] := by
    rw [h]
    exact List.cons_ne_nil _ _
  have hhead := List.head_dropWhile_not Round.failed hne
  have he : e.failed = false := by simpa [h] using hhead
  rw [Round.failed, Round.ok] at he
  exact Option.isSome_iff_exists.1 (by simpa using he)

/-- **The loop reports the outages**, from a state after a successful probe. -/
theorem Up.summary_foldl (tStop : T) (l : List (Round T U)) {s : PollState T D U} (hs : Up s) :
    (l.foldl (pollRound cfg tStart) s).summary cfg tStop =
      s.outages ++ outagesFrom cfg tStart tStop s.lastOkUptime s.lastRecoveryAt l := by
  -- one successful probe, or one block of failed ones, at a time
  generalize hn : l.length = n
  induction n using Nat.strong_induction_on generalizing l s with
  | h n ih =>
    rcases l with - | ⟨r, rs⟩
    · rw [List.foldl_nil, PollState.summary, hs.cur, outagesFrom, List.append_nil]
    · rcases hp : r.probe with - | uptime
      · have hr : r.failed = true := by rw [Round.failed, Round.ok, hp]; rfl
        obtain ⟨hfs, hrest⟩ := takeWhile_failed rs
        have hdown := @Up.foldl_down _ _ _ cfg tStart s hs r hr _ hfs
        have hsplit : (r :: rs).foldl (pollRound cfg tStart) s =
            (rs.dropWhile Round.failed).foldl (pollRound cfg tStart)
              ((r :: rs.takeWhile Round.failed).foldl (pollRound cfg tStart) s) := by
          rw [← List.foldl_append, List.cons_append, List.takeWhile_append_dropWhile]
        have hlen := congrArg List.length (@List.takeWhile_append_dropWhile _ Round.failed rs)
        rw [hsplit, outagesFrom, hp]
        dsimp only
        split
        · next hnil =>
          rw [hnil, List.foldl_nil, PollState.summary, hdown.cur]
          by_cases hout : IsOutage cfg (r :: rs.takeWhile Round.failed)
          · rw [if_pos hout, if_pos hout, hdown.outages]
          · rw [if_neg hout, if_neg hout, hdown.outages, List.append_nil]
        · next e rest hcons =>
          obtain ⟨uptime, he⟩ := hrest e rest hcons
          have hrec := @pollRound_of_ok _ _ _ cfg tStart
            ((r :: rs.takeWhile Round.failed).foldl (pollRound cfg tStart) s) e uptime he
          rw [hcons, List.length_append, List.length_cons] at hlen
          rw [hcons, List.foldl_cons, ih rest.length (by rw [← hn, List.length_cons]; omega) rest
            hrec.up rfl, hrec.outages, hrec.lastOkUptime, hrec.lastRecoveryAt, hdown.cur,
            hdown.outages, hdown.lastOkUptime, hdown.lastRecoveryAt, he]
          by_cases hout : IsOutage cfg (r :: rs.takeWhile Round.failed)
          · rw [if_pos hout, if_pos hout, List.append_assoc]
            rfl
          · rw [if_neg hout, if_neg hout, List.append_assoc]
            rfl
      · have hrec := @pollRound_of_ok _ _ _ cfg tStart s r uptime hp
        rw [List.foldl_cons, ih rs.length (by rw [← hn]; exact Nat.lt_succ_self _) rs hrec.up rfl,
          hrec.outages, hrec.lastOkUptime, hrec.lastRecoveryAt, hs.cur, outagesFrom, hp]
        simp

/-! ### A whole run -/

/-- While the device has never answered, failed probes are no outage. -/
theorem foldl_boot {l : List (Round T U)} (hl : ∀ x ∈ l, x.failed = true) :
    let t := l.foldl (pollRound cfg tStart) (.start tStart)
    t.cur = none ∧ t.outages = [] ∧ t.lastOkAt = none ∧ t.lastOkUptime = none ∧
      t.lastRecoveryAt = tStart := by
  induction l using List.reverseRecOn with
  | nil => exact ⟨rfl, rfl, rfl, rfl, rfl⟩
  | append_singleton l x ih =>
    obtain ⟨hcur, hout, hok, hup, hrec⟩ := ih fun y hy ↦ hl y (List.mem_append_left _ hy)
    have hx := hl x (List.mem_append_right _ List.mem_cons_self)
    intro t
    have ht : t = (((l.foldl (pollRound cfg tStart) (.start tStart)).count x).fail x).detect cfg
        tStart x := by
      rw [← PollState.failure, ← pollRound_of_failed hx]
      exact List.foldl_append
    have hframe := @detect_frame _ _ _ cfg tStart
      (((l.foldl (pollRound cfg tStart) (.start tStart)).count x).fail x) x
    rw [ht]
    refine ⟨?_, hframe.outages.trans hout, hframe.lastOkAt.trans hok,
      hframe.lastOkUptime.trans hup, hframe.lastRecoveryAt.trans hrec⟩
    rw [cur_detect, if_neg]
    · exact hcur
    · rintro ⟨-, -, h⟩
      exact Bool.false_ne_true ((congrArg Option.isSome hok).symm.trans h)

theorem pollLoop_eq (s : PollState T D U) (rounds : List (Round T U)) :
    pollLoop cfg tStart s rounds =
      (taken cfg tStart s rounds).foldl (pollRound cfg tStart) s := by
  induction rounds generalizing s with
  | nil => rfl
  | cons r rs ih =>
    rw [pollLoop, taken]
    split
    · rfl
    · exact ih _

/-- **What the loop reports are the outages** of the rounds it took, in order, each from its first
failed probe to the next successful one or to the end of the run. -/
theorem poll_eq (cfg : PollCfg T D U) (tStart : T) (rounds : List (Round T U)) (tStop : T) :
    poll cfg tStart rounds tStop =
      outagesOf cfg tStart tStop (taken cfg tStart (.start tStart) rounds) := by
  rw [poll, pollLoop_eq]
  generalize taken cfg tStart (.start tStart) rounds = l
  have hboot := @foldl_boot _ _ _ cfg tStart (l.takeWhile Round.failed) fun x hx ↦
    List.mem_takeWhile_imp hx
  obtain ⟨hcur, hout, hok, hup, hrec⟩ := hboot
  have hsplit : l.foldl (pollRound cfg tStart) (.start tStart) =
      (l.dropWhile Round.failed).foldl (pollRound cfg tStart)
        ((l.takeWhile Round.failed).foldl (pollRound cfg tStart) (.start tStart)) := by
    rw [← List.foldl_append, List.takeWhile_append_dropWhile]
  rw [hsplit, outagesOf]
  rcases hd : l.dropWhile Round.failed with - | ⟨e, rest⟩
  · rw [List.foldl_nil, PollState.summary, hcur]
    exact hout
  · obtain ⟨uptime, he⟩ := (takeWhile_failed l).2 e rest hd
    have hrecv := @pollRound_of_ok _ _ _ cfg tStart
      ((l.takeWhile Round.failed).foldl (pollRound cfg tStart) (.start tStart)) e uptime he
    rw [List.foldl_cons, hrecv.up.summary_foldl, hrecv.outages, hrecv.lastOkUptime,
      hrecv.lastRecoveryAt, hcur, hout, hup, hrec]
    dsimp only
    rw [he, Option.or_none]
    rfl

end ThinEdge.Soak
