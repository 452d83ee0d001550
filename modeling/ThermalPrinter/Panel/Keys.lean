import ThermalPrinter.Panel.Power
import Mathlib.Data.List.DropRight

/-!
# The task of the keys

`PeripheralApparatusTask` calls `OffHandle` and `KeyOperation` in turn, all on one thread, so the
power button is not looked at while a key is held or while the self-test page is drawn. A page is
drawn only after the self-test key was held (`selfPrint_held`), and an update over the network only
begun after the other key was held and the switch pressed; it is never left (`ota_held`).

What the power button's statics say is what the calls of `OffHandle` read (`after_power`). So the
power is cut when a call reads the switch pressed and the last call that read it released is three
seconds ago (`powerOff_iff`), and if a key was held meanwhile, the switch need be pressed only for
that one call (`tap_cuts_power`).
-/

namespace ThermalPrinter

/-- What a turn of the task reads: beside what `OffHandle` reads, the voltage of the keys. -/
structure Reading extends Poll where
  adc : Nat
  deriving DecidableEq, Repr

/-- Where the task is: at the call of `OffHandle`, at the beginning of `KeyOperation`, in one of its
loops, at the conditions behind them, in the loop that waits for the switch to be released, and in
the loop of the update. -/
inductive KeyPlace
  | off
  | key
  | hold (isSelfTest : Bool) (Times : UInt32)
  | otaKey (isSelfTest : Bool) (Times : UInt32)
  | testKey (isSelfTest : Bool) (Times : UInt32)
  | releasing
  | ota
  deriving DecidableEq, Repr

/-- What a turn does to the rest of the printer. `PowerOff` writes a register. -/
inductive KeyOutput
  | PowerOff (PowerLockGpio : UInt32)
  | SelfPrint
  | disableTCPTask
  | net_ota_single_back_init
  deriving DecidableEq, Repr

/-- The task, with the statics of `OffHandle`. The LEDs are left out. -/
structure Panel where
  power : Power
  place : KeyPlace
  deriving DecidableEq, Repr

namespace Panel

/-- The task at boot. -/
def init : Panel := { power := Power.init, place := .off }

/-- The voltage from which the key is held on. -/
def heldFrom (isSelfTest : Bool) : Nat := if isSelfTest then 130 else 800

/-- A turn of `PeripheralApparatusTask`. A turn of a loop of `KeyOperation` reads the key before its
delay and the switch behind it. -/
def turn (r : Reading) (s : Panel) : Panel × Option KeyOutput :=
  match s.place with
  | .off =>
    ({ power := (s.power.OffHandle r.toPoll).1, place := .key },
      (s.power.OffHandle r.toPoll).2.map .PowerOff)
  | .key =>
    ({ s with place :=
        if r.adc > 130 ∧ r.adc < 400 then .hold true 0
        else if r.adc > 800 then .hold false 0
        else .off }, none)
  | .hold isSelfTest Times =>
    ({ s with place :=
        if Times + 1 > 10 ∧ r.SwitchState = false then .otaKey isSelfTest (Times + 1)
        else if r.adc > heldFrom isSelfTest then .hold isSelfTest (Times + 1)
        else .otaKey isSelfTest (Times + 1) }, none)
  | .otaKey isSelfTest Times =>
    if Times > 10 ∧ r.SwitchState = false ∧ isSelfTest = false then
      ({ s with place := .releasing }, some .disableTCPTask)
    else ({ s with place := .testKey isSelfTest Times }, none)
  | .testKey isSelfTest Times =>
    ({ s with place := .off },
      if Times > 4 ∧ r.SwitchState = true ∧ isSelfTest = true then some .SelfPrint else none)
  | .releasing =>
    if r.SwitchState = false then (s, none)
    else ({ s with place := .ota }, some .net_ota_single_back_init)
  | .ota =>
    (s, if r.SwitchState = false then some (.PowerOff (r.PowerLockGpio &&& ~~~PowerLockIOBit))
      else none)

/-- The task after some turns. -/
def run (s : Panel) (rs : List Reading) : Panel := rs.foldl (fun s r => (s.turn r).1) s

/-- The task after some turns from boot. -/
abbrev after (rs : List Reading) : Panel := init.run rs

/-- What the calls of `OffHandle` read. -/
def polls (s : Panel) : List Reading → List Poll
  | [] => []
  | r :: rs => (if s.place = .off then [r.toPoll] else []) ++ polls (s.turn r).1 rs

/-- The last call of `OffHandle` that read the switch released. -/
def lastReleased (polls : List Poll) : Option Poll :=
  (polls.filter fun p => p.SwitchState).getLast?

/-- A turn cuts the power. -/
def CutsPower (r : Reading) (s : Panel) : Prop := ∃ reg, (s.turn r).2 = some (.PowerOff reg)

/-- A key was found, and then its loop read some samples: all but the last were in its range. -/
def Held (isSelfTest : Bool) (samples rs : List Reading) : Prop :=
  (∃ earlier key, rs = earlier ++ key :: samples ∧ (after earlier).place = .key ∧
    if isSelfTest then 130 < key.adc ∧ key.adc < 400 else 800 < key.adc) ∧
  ∀ x ∈ samples.dropLast, heldFrom isSelfTest < x.adc

/-- What the place of the task says of the turns so far. -/
def Tells (rs : List Reading) : KeyPlace → Prop
  | .off | .key => True
  | .hold isSelfTest Times => ∃ samples, Held isSelfTest samples rs ∧
      Times = .ofNat samples.length ∧ ∀ x ∈ samples, heldFrom isSelfTest < x.adc
  | .otaKey isSelfTest Times => ∃ samples, Held isSelfTest samples rs ∧
      Times = .ofNat samples.length
  | .testKey isSelfTest Times => ∃ samples rs' o, rs = rs' ++ [o] ∧
      Held isSelfTest samples rs' ∧ Times = .ofNat samples.length
  | .releasing | .ota => ∃ samples rs' p later, rs = rs' ++ p :: later ∧
      Held false samples rs' ∧ 10 < samples.length ∧ p.SwitchState = false

variable {s : Panel} {r p : Reading} {q : Poll} {rs rs' mid samples : List Reading}
  {ps : List Poll} {isSelfTest : Bool} {Times : UInt32}

theorem run_append : s.run (rs ++ rs') = (s.run rs).run rs' := List.foldl_append

theorem run_concat : s.run (rs ++ [r]) = ((s.run rs).turn r).1 :=
  List.foldl_concat ..

theorem polls_append : s.polls (rs ++ rs') = s.polls rs ++ (s.run rs).polls rs' := by
  induction rs generalizing s with
  | nil => rfl
  | cons r rs ih => rw [List.cons_append, polls, polls, ih, List.append_assoc]; rfl

theorem polls_concat :
    s.polls (rs ++ [r]) = s.polls rs ++ if (s.run rs).place = .off then [r.toPoll] else [] := by
  rw [polls_append, polls, polls, List.append_nil]

/-! ## The power -/

/-- A turn away from `OffHandle` leaves its statics. -/
theorem turn_power (hoff : s.place ≠ .off) : (s.turn r).1.power = s.power := by
  unfold turn
  cases hs : s.place with
  | off => exact absurd hs hoff
  | key | hold | testKey | ota => rfl
  | otaKey => dsimp only; split <;> rfl
  | releasing => dsimp only; split <;> rfl

/-- The statics are those of the calls of `OffHandle` that the task made. -/
theorem after_power (rs : List Reading) : (after rs).power = Power.after (init.polls rs) := by
  induction rs using List.reverseRecOn with
  | nil => rfl
  | append_singleton rs r ih =>
    rw [after, run_concat, polls_concat]
    by_cases hoff : (init.run rs).place = .off
    · rw [if_pos hoff, Power.after, List.foldl_concat, turn, hoff]
      dsimp only
      rw [ih, Power.after]
    · rw [if_neg hoff, List.append_nil, turn_power hoff, ih]

/-- What the statics say, told by the last call that read the switch released. -/
theorem tracks_lastReleased {power : Power} (h : power.Tracks ps) :
    power.powerStateCounter = 0 ∧ lastReleased ps = none ∨
      (power.powerStateCounter = 2 ∨ power.powerStateCounter = 3) ∧
        ∃ q, lastReleased ps = some q ∧ power.pressStartTime = q.xTaskGetTickCount := by
  have hnone {qs : List Poll} (hqs : ∀ q ∈ qs, q.Pressed) :
      (qs.filter fun q => q.SwitchState) = [] :=
    List.filter_eq_nil_iff.2 fun q hq => Bool.not_eq_true _ ▸ hqs q hq
  rcases h with ⟨hzero, hall⟩ | ⟨hcount, earlier, q, later, rfl, hq, hlater, hstart⟩
  · left
    rw [lastReleased, hnone hall]
    exact ⟨hzero, rfl⟩
  · refine .inr ⟨hcount, q, ?_, hstart⟩
    rw [lastReleased, List.filter_append, List.filter_cons_of_pos (Bool.not_eq_false _ ▸ hq),
      hnone hlater, List.getLast?_concat]

/-- A call of `OffHandle` cuts the power. -/
theorem powersOff_iff_lastReleased :
    Power.PowersOff q (Power.after ps) ↔ q.SwitchState = false ∧
      ∃ q' ∈ lastReleased ps,
        pdMS_TO_TICKS 3000 ≤ q.xTaskGetTickCount - q'.xTaskGetTickCount := by
  rw [Power.powersOff_iff]
  rcases tracks_lastReleased (Power.tracks_after ps) with
    ⟨hzero, hlast⟩ | ⟨hcount, q', hlast, hstart⟩
  · rw [hzero, hlast]
    refine iff_of_false (fun h => absurd h.2.1 (by decide)) ?_
    rintro ⟨-, q', hq', -⟩
    exact absurd hq' (Option.not_mem_none q')
  · rw [hstart, hlast]
    constructor
    · rintro ⟨hp, -, htime⟩
      exact ⟨hp, q', rfl, htime⟩
    · rintro ⟨hp, _, hq', htime⟩
      obtain rfl := Option.mem_some.1 hq'
      exact ⟨hp, hcount, htime⟩

/-- A turn cuts the power at the call of `OffHandle` or in the loop of the update. -/
theorem cutsPower_iff :
    CutsPower r s ↔ s.place = .off ∧ Power.PowersOff r.toPoll s.power ∨
      s.place = .ota ∧ r.SwitchState = false := by
  unfold CutsPower turn
  cases hs : s.place with
  | off => simp [Power.PowersOff, Option.isSome_iff_exists]
  | key | hold => simp
  | otaKey => dsimp only; split <;> simp
  | testKey => dsimp only; split <;> simp
  | releasing => dsimp only; split <;> simp
  | ota => dsimp only; split <;> simp_all

/-- **When the power is cut.** In every run, a turn cuts the power if and only if it reads the
switch pressed, and either the task is in the loop of the update, or it is at the call of
`OffHandle` and the last call of it that read the switch released is three seconds ago. -/
theorem powerOff_iff (rs : List Reading) (r : Reading) :
    CutsPower r (after rs) ↔ r.SwitchState = false ∧
      ((after rs).place = .ota ∨ (after rs).place = .off ∧ ∃ q ∈ lastReleased (init.polls rs),
        pdMS_TO_TICKS 3000 ≤ r.xTaskGetTickCount - q.xTaskGetTickCount) := by
  rw [cutsPower_iff, after_power, powersOff_iff_lastReleased]
  constructor
  · rintro (⟨hoff, hp, hlast⟩ | ⟨hota, hp⟩)
    · exact ⟨hp, .inr ⟨hoff, hlast⟩⟩
    · exact ⟨hp, .inl hota⟩
  · rintro ⟨hp, hota | ⟨hoff, hlast⟩⟩
    · exact .inr ⟨hota, hp⟩
    · exact .inl ⟨hoff, hp, hlast⟩

/-- **After a key was held, a tap cuts the power.** A call of `OffHandle` that reads the switch
released is followed by turns of the keys only; when the task is back and the call is three seconds
ago, the next one cuts the power if it reads the switch pressed, whatever the switch was between
them. -/
theorem tap_cuts_power (hoff : (after rs).place = .off) (hr : r.SwitchState = true)
    (hkeys : (after (rs ++ [r])).polls mid = [])
    (hback : (after (rs ++ [r] ++ mid)).place = .off) (hp : p.SwitchState = false)
    (htime : pdMS_TO_TICKS 3000 ≤ p.xTaskGetTickCount - r.xTaskGetTickCount) :
    CutsPower p (after (rs ++ [r] ++ mid)) := by
  have hlast : lastReleased (init.polls (rs ++ [r] ++ mid)) = some r.toPoll := by
    rw [polls_append, hkeys, List.append_nil, polls_concat, if_pos hoff, lastReleased,
      List.filter_append, List.filter_cons_of_pos hr, List.filter_nil, List.getLast?_concat]
  rw [cutsPower_iff, after_power, powersOff_iff_lastReleased, hlast]
  exact .inl ⟨hback, hp, r.toPoll, rfl, htime⟩

/-- The self-test key is held for three seconds, and one call reads the switch pressed. -/
theorem tap_cuts_power_tap :
    CutsPower ⟨⟨300, false, 4⟩, 0⟩ (after ([] ++ [⟨⟨0, true, 4⟩, 200⟩] ++
      (List.replicate 20 ⟨⟨0, true, 4⟩, 200⟩ ++ List.replicate 3 ⟨⟨0, true, 4⟩, 0⟩))) :=
  tap_cuts_power rfl rfl (by decide +kernel) (by decide +kernel) rfl (by decide +kernel)

/-! ## The keys -/

/-- What the counter shows was counted, though it wraps. -/
theorem lt_length {n : UInt32} (h : n < .ofNat samples.length) : n.toNat < samples.length := by
  have hlt := UInt32.lt_iff_toNat_lt.1 h
  rw [UInt32.toNat_ofNat'] at hlt
  exact hlt.trans_le (Nat.mod_le ..)

/-- One sample more. -/
theorem Held.concat (h : Held isSelfTest samples rs)
    (hall : ∀ x ∈ samples, heldFrom isSelfTest < x.adc) (r : Reading) :
    Held isSelfTest (samples ++ [r]) (rs ++ [r]) := by
  obtain ⟨⟨earlier, key, rfl, hplace, hkey⟩, -⟩ := h
  refine ⟨⟨earlier, key, ?_, hplace, hkey⟩, ?_⟩
  · rw [List.append_assoc, List.cons_append]
  · rwa [List.dropLast_concat]

/-- A turn keeps what the place says. -/
theorem Tells.turn (h : Tells rs (after rs).place) (r : Reading) :
    Tells (rs ++ [r]) ((after rs).turn r).1.place := by
  unfold Panel.turn
  cases hs : (after rs).place with
  | off => trivial
  | key =>
    have hheld (isSelfTest : Bool)
        (hkey : if isSelfTest then 130 < r.adc ∧ r.adc < 400 else 800 < r.adc) :
        Tells (rs ++ [r]) (.hold isSelfTest 0) :=
      ⟨[], ⟨⟨rs, r, rfl, hs, hkey⟩, List.forall_mem_nil _⟩, rfl, List.forall_mem_nil _⟩
    dsimp only
    split
    next htest => exact hheld true htest
    next =>
      split
      next hota => exact hheld false hota
      next => trivial
  | hold isSelfTest Times =>
    rw [hs] at h
    obtain ⟨samples, hheld, rfl, hall⟩ := h
    have hcount : UInt32.ofNat samples.length + 1 = .ofNat (samples ++ [r]).length := by
      rw [List.length_append, UInt32.ofNat_add]
      rfl
    dsimp only
    rw [hcount]
    split
    next => exact ⟨samples ++ [r], hheld.concat hall r, rfl⟩
    next =>
      split
      next hadc =>
        refine ⟨samples ++ [r], hheld.concat hall r, rfl, ?_⟩
        intro x hx
        rcases List.mem_append.1 hx with hx | hx
        · exact hall x hx
        · rwa [List.mem_singleton.1 hx]
      next => exact ⟨samples ++ [r], hheld.concat hall r, rfl⟩
  | otaKey isSelfTest Times =>
    rw [hs] at h
    obtain ⟨samples, hheld, rfl⟩ := h
    dsimp only
    split
    next hota =>
      obtain ⟨hTimes, hp, rfl⟩ := hota
      exact ⟨samples, rs, r, [], rfl, hheld, lt_length hTimes, hp⟩
    next => exact ⟨samples, rs, r, rfl, hheld, rfl⟩
  | testKey => trivial
  | releasing =>
    rw [hs] at h
    obtain ⟨samples, rs', p, later, hrs, hota⟩ := h
    have hrs' : rs ++ [r] = rs' ++ p :: (later ++ [r]) := by
      rw [hrs, List.append_assoc, List.cons_append]
    dsimp only
    split
    next =>
      dsimp only
      rw [hs]
      exact ⟨samples, rs', p, later ++ [r], hrs', hota⟩
    next => exact ⟨samples, rs', p, later ++ [r], hrs', hota⟩
  | ota =>
    rw [hs] at h
    obtain ⟨samples, rs', p, later, hrs, hota⟩ := h
    have hrs' : rs ++ [r] = rs' ++ p :: (later ++ [r]) := by
      rw [hrs, List.append_assoc, List.cons_append]
    dsimp only
    rw [hs]
    exact ⟨samples, rs', p, later ++ [r], hrs', hota⟩

/-- In every run, the place says it. -/
theorem tells_after (rs : List Reading) : Tells rs (after rs).place := by
  induction rs using List.reverseRecOn with
  | nil => trivial
  | append_singleton rs r ih =>
    rw [after, run_concat]
    exact ih.turn r

/-- A turn that draws a page is at the conditions behind the loops. -/
theorem place_of_selfPrint (h : (s.turn r).2 = some .SelfPrint) :
    ∃ Times, s.place = .testKey true Times ∧ Times > 4 ∧ r.SwitchState = true := by
  unfold turn at h
  cases hs : s.place with
  | testKey isSelfTest Times =>
    rw [hs] at h
    dsimp only at h
    split at h
    next htest =>
      obtain ⟨hTimes, hr, rfl⟩ := htest
      exact ⟨Times, rfl, hTimes, hr⟩
    next => cases h
  | off => simp [hs] at h
  | key | hold => simp [hs] at h
  | otaKey | releasing | ota =>
    rw [hs] at h
    dsimp only at h
    split at h <;> simp at h

/-- **A page is drawn only for the key that was held.** In every run, a turn that draws the
self-test page reads the switch released; the turn before it looked at the other condition; and
before that the key was found and five samples or more were taken of it, each but the last in its
range. -/
theorem selfPrint_held (h : ((after rs).turn r).2 = some .SelfPrint) :
    r.SwitchState = true ∧ ∃ samples rs' o, rs = rs' ++ [o] ∧ Held true samples rs' ∧
      5 ≤ samples.length := by
  obtain ⟨Times, hplace, hTimes, hr⟩ := place_of_selfPrint h
  have htells := tells_after rs
  rw [hplace] at htells
  obtain ⟨samples, rs', o, hrs, hheld, rfl⟩ := htells
  exact ⟨hr, samples, rs', o, hrs, hheld, lt_length hTimes⟩

/-- The key is held for five samples. -/
theorem selfPrint_held_page :
    (⟨⟨0, true, 4⟩, 0⟩ : Reading).SwitchState = true ∧ ∃ samples rs' o,
      List.replicate 6 (⟨⟨0, true, 4⟩, 200⟩ : Reading) ++ List.replicate 2 ⟨⟨0, true, 4⟩, 0⟩ =
          rs' ++ [o] ∧
        Held true samples rs' ∧ 5 ≤ samples.length :=
  selfPrint_held (by decide +kernel)

/-- A turn in the update stays in it. -/
theorem turn_ota (hota : s.place = .ota) : (s.turn r).1 = s := by
  unfold turn
  rw [hota]

/-- So do all that follow. -/
theorem run_ota (hota : s.place = .ota) (rs : List Reading) : s.run rs = s ∧ s.polls rs = [] := by
  induction rs with
  | nil => exact ⟨rfl, rfl⟩
  | cons r rs ih =>
    have hoff : s.place ≠ .off := by
      rw [hota]
      exact KeyPlace.noConfusion
    rw [run, List.foldl_cons, polls, turn_ota hota, if_neg hoff]
    exact ih

/-- **The update is begun only by the key and the switch, and never left.** In every run, the loop
of the update is reached only when the other key was found and more than ten samples were taken of
it, each but the last in its range, and the switch was read pressed behind them. From there on no
turn calls `OffHandle`, draws a page or looks at a key: it can only cut the power. -/
theorem ota_held (h : (after rs).place = .ota) :
    (∃ samples rs' p later, rs = rs' ++ p :: later ∧ Held false samples rs' ∧
      10 < samples.length ∧ p.SwitchState = false) ∧
    ∀ rs', after (rs ++ rs') = after rs ∧ (after rs).polls rs' = [] ∧
      ∀ r o, ((after (rs ++ rs')).turn r).2 = some o → r.SwitchState = false ∧
        o = .PowerOff (r.PowerLockGpio &&& ~~~PowerLockIOBit) := by
  have htells := tells_after rs
  rw [h] at htells
  refine ⟨htells, fun rs' => ?_⟩
  obtain ⟨hrun, hpolls⟩ := run_ota h rs'
  rw [after, run_append, hrun]
  refine ⟨rfl, hpolls, fun r o ho => ?_⟩
  rw [turn, h] at ho
  dsimp only at ho
  split at ho
  next hp => exact ⟨hp, (Option.some.inj ho).symm⟩
  next => cases ho

/-- The other key is held with the switch, and the switch is released. -/
theorem ota_held_update :
    ∃ samples rs' p later, List.replicate 14 (⟨⟨0, false, 4⟩, 900⟩ : Reading) ++
        [⟨⟨0, true, 4⟩, 0⟩] = rs' ++ p :: later ∧
      Held false samples rs' ∧ 10 < samples.length ∧ p.SwitchState = false :=
  (ota_held (by decide +kernel)).1

end Panel

end ThermalPrinter
