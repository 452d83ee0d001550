import ThermalPrinter.Channel.Tasks

/-!
# Who owns the printer

The first packet of a channel makes it the owner, and the data task gives the printer back when it
finds the owner's list empty and the idle timer is 1000 ticks old. Every further packet of the owner
writes the timer, but the first one does not: until the second one the timer is as old as it
happened to be. In a run in which no release is due to such a timer (`Timely`) the channels exclude
each other (`hand_overs_exclusive`); otherwise another channel may follow at once
(`stale_timer_mixes`).
-/

namespace ThermalPrinter

open Relation

/-- Different channels become different owners. -/
theorem CType.method_inj {c c' : CType} (h : c.method = c'.method) : c = c' := by
  cases c <;> cases c' <;> first | rfl | cases h

/-- The age of a timer on the 32-bit tick counter is at most its real age. -/
theorem timer_age {written time : Nat} (h : written ≤ time)
    (hage : UInt32.ofNat time - UInt32.ofNat written ≥ 1000) : written + 1000 ≤ time := by
  rw [← UInt32.ofNat_sub h, ge_iff_le, UInt32.le_iff_toNat_le, UInt32.toNat_ofNat'] at hage
  have hmod := Nat.mod_le (time - written) (2 ^ 32)
  have h1000 : (1000 : UInt32).toNat = 1000 := rfl
  omega

/-- The channel whose list the data task is copying. -/
def Pc.channel : Pc → Option CType
  | .copy c _ _ => some c
  | .manage c _ _ _ => some c
  | _ => none

namespace World

variable {w w' : World} {env : Env}

/-- Between a packet of one channel and a later one of another channel lie 1000 ticks. The latest
hand-over comes first. -/
def Exclusive (handed : List (Nat × CType)) : Prop :=
  handed.Pairwise fun later earlier => later.2 ≠ earlier.2 → earlier.1 + 1000 ≤ later.1

/-- If the step gives the printer back, the idle timer was written since the owner took the printer,
or that is 1000 ticks ago. -/
def Timely (w w' : World) : Prop :=
  w.method ≠ .IDLE → w'.method = .IDLE → w.taken ≤ w.written ∨ w.taken + 1000 ≤ w.time

/-- The channels excluded each other so far; and every packet is 1000 ticks old but those of the
owner, which are not younger than the taking of the printer or the last writing of the timer. -/
structure Owned (w : World) : Prop where
  exclusive : Exclusive w.handed
  timer : w.printTimeout = UInt32.ofNat w.written
  written_le : w.written ≤ w.time
  taken_le : w.taken ≤ w.time
  latest : ∀ h ∈ w.handed, h.1 ≤ w.taken ∨ h.1 ≤ w.written
  foreign : ∀ h ∈ w.handed, h.2.method ≠ w.method → h.1 + 1000 ≤ w.time
  channel : ∀ c, w.pc.channel = some c → w.method = .IDLE ∨ w.method = c.method

/-- No channel has the method `IDLE`. -/
theorem method_ne_IDLE (c : CType) : c.method ≠ .IDLE := by cases c <;> decide

theorem init_owned (HeadStbLowValid : UInt8) (time : Nat) : (init HeadStbLowValid time).Owned where
  exclusive := .nil
  timer := rfl
  written_le := Nat.zero_le _
  taken_le := Nat.zero_le _
  latest _ h := absurd h (List.not_mem_nil)
  foreign _ h := absurd h (List.not_mem_nil)
  channel _ h := by cases h

/-- An action that neither hands over a packet nor touches the owner and the timer. -/
theorem Owned.of_eq (h : w.Owned) (hmethod : w'.method = w.method)
    (htimer : w'.printTimeout = w.printTimeout) (hwritten : w'.written = w.written)
    (htaken : w'.taken = w.taken) (hhanded : w'.handed = w.handed) (htime : w.time ≤ w'.time)
    (hchannel : ∀ c, w'.pc.channel = some c → w.method = .IDLE ∨ w.method = c.method) :
    w'.Owned where
  exclusive := hhanded ▸ h.exclusive
  timer := by rw [htimer, hwritten]; exact h.timer
  written_le := by rw [hwritten]; exact Nat.le_trans h.written_le htime
  taken_le := by rw [htaken]; exact Nat.le_trans h.taken_le htime
  latest := by rw [hhanded, htaken, hwritten]; exact h.latest
  foreign e he hne := by
    rw [hhanded] at he
    rw [hmethod] at hne
    exact Nat.le_trans (h.foreign e he hne) htime
  channel c hpc := by rw [hmethod]; exact hchannel c hpc

/-- Writing the timer. -/
theorem Owned.writeTimer (h : w.Owned) : w.writeTimer.Owned where
  exclusive := h.exclusive
  timer := rfl
  written_le := Nat.le_refl _
  taken_le := h.taken_le
  latest e he := .inr ((h.latest e he).elim (fun hl => Nat.le_trans hl h.taken_le)
    (fun hl => Nat.le_trans hl h.written_le))
  foreign := h.foreign
  channel := h.channel

/-- A packet is handed over: it is of the owner, or of the channel that takes the printer. -/
theorem Owned.hand (h : w.Owned) {c : CType} {count : Nat} {data : List UInt8}
    {rest : List CType} {q : List (List UInt8)} (hpc : w.pc = .copy c count rest)
    (hq : w.DP c = data :: q) : (w.copyHead c count rest).Owned := by
  have hchannel : w.method = .IDLE ∨ w.method = c.method := h.channel c (by rw [hpc]; rfl)
  have hold : ∀ e ∈ w.handed, e.2 ≠ c → e.1 + 1000 ≤ w.time := by
    intro e he hne
    refine h.foreign e he ?_
    intro hm
    rcases hchannel with hidle | hown
    · exact method_ne_IDLE _ (hm.trans hidle)
    · exact hne (CType.method_inj (hm.trans hown))
  have hpast : ∀ e ∈ w.handed, e.1 ≤ w.time := fun e he =>
    (h.latest e he).elim (fun hl => Nat.le_trans hl h.taken_le)
      (fun hl => Nat.le_trans hl h.written_le)
  have hexcl : Exclusive ((w.time, c) :: w.handed) :=
    List.pairwise_cons.2 ⟨fun e he hne => hold e he (Ne.symm hne), h.exclusive⟩
  have hown : ∀ d, some c = some d → c.method = .IDLE ∨ c.method = d.method := by
    rintro _ ⟨⟩
    exact .inr rfl
  unfold World.copyHead
  simp only [hq]
  by_cases hidle : w.method = .IDLE
  · simp only [if_pos hidle]
    refine ⟨hexcl, h.timer, h.written_le, Nat.le_refl _, fun e he => .inl ?_, ?_, hown⟩
    · rcases List.mem_cons.1 he with rfl | he
      · exact Nat.le_refl _
      · exact hpast e he
    · intro e he hne
      rcases List.mem_cons.1 he with rfl | he
      · exact absurd rfl hne
      · exact hold e he fun hc => hne (hc ▸ rfl)
  · simp only [if_neg hidle]
    have hmethod : w.method = c.method := hchannel.resolve_left hidle
    refine ⟨hexcl, rfl, Nat.le_refl _, h.taken_le, fun e he => .inr ?_, ?_,
      fun d hd => hmethod ▸ hown d hd⟩
    · rcases List.mem_cons.1 he with rfl | he
      · exact Nat.le_refl _
      · exact hpast e he
    · intro e he hne
      rcases List.mem_cons.1 he with rfl | he
      · exact absurd hmethod.symm hne
      · exact h.foreign e he hne

/-- The owner's list is empty: if the printer is given back, every packet is 1000 ticks old. -/
theorem Owned.release (h : w.Owned) {c : CType} {count : Nat} {rest : List CType}
    (hempty : w.DP c = []) (htimely : Timely w (w.copyHead c count rest)) :
    (w.copyHead c count rest).Owned := by
  unfold World.copyHead at htimely ⊢
  simp only [hempty] at htimely ⊢
  by_cases hrel : w.now - w.printTimeout ≥ 1000 ∧ w.method ≠ .IDLE
  · simp only [if_pos hrel] at htimely ⊢
    have hage : w.written + 1000 ≤ w.time := by
      have hage := hrel.1
      rw [h.timer] at hage
      exact timer_age h.written_le hage
    refine ⟨h.exclusive, h.timer, h.written_le, h.taken_le, h.latest, ?_,
      fun _ hm => by cases hm⟩
    intro e he _
    show e.1 + 1000 ≤ w.time
    rcases h.latest e he with hl | hl
    · rcases htimely hrel.2 rfl with hw | hw
      · have : w.taken ≤ w.written := hw
        omega
      · have : w.taken + 1000 ≤ w.time := hw
        omega
    · omega
  · simp only [if_neg hrel]
    exact h.of_eq rfl rfl rfl rfl rfl (Nat.le_refl _) (fun _ hm => by cases hm)

/-- Every action keeps the invariant, where releases are timely. -/
theorem step_owned (h : w.Owned) (htimely : Timely w w') (hstep : Step env w w') : w'.Owned := by
  cases hstep with
  | tick => exact h.of_eq rfl rfl rfl rfl rfl (Nat.le_succ _) h.channel
  | receive | malloc | takeRows =>
    exact h.of_eq rfl rfl rfl rfl rfl (Nat.le_refl _) h.channel
  | Print => exact h.writeTimer
  | dispatch hpc =>
    refine h.of_eq rfl rfl rfl rfl rfl (Nat.le_refl _) ?_
    intro c hm
    unfold World.dispatch at hm
    cases hmeth : w.method <;> rw [hmeth] at hm <;> cases hm
    all_goals exact .inr rfl
  | poll rest hpc =>
    cases rest with
    | nil => exact h.of_eq rfl rfl rfl rfl rfl (Nat.le_refl _) (fun _ hm => by cases hm)
    | cons c rest =>
      refine h.of_eq rfl rfl rfl rfl rfl (Nat.le_refl _) ?_
      intro c' hm
      simp only [pollNext] at hm
      split at hm
      next hidle => exact .inl hidle
      next => cases hm
  | copyHead c count rest hpc =>
    cases hq : w.DP c with
    | cons data q => exact h.hand hpc hq
    | nil => exact h.release hq htimely
  | copyDone c count data rest fuel accepted printer hpc =>
    have hchannel := h.channel c (by rw [hpc]; rfl)
    unfold World.copyDone
    cases accepted with
    | false => exact h.of_eq rfl rfl rfl rfl rfl (Nat.le_refl _) (fun _ hm => by cases hm)
    | true =>
      refine h.of_eq rfl rfl rfl rfl rfl (Nat.le_refl _) ?_
      intro c' hm
      simp only [if_true] at hm
      split at hm
      next => cases hm
      next => cases hm; exact hchannel

/-- **The channels exclude each other**, in every run in which no release is due to a timer older
than the ownership, unless that is 1000 ticks old itself: after a packet of a channel no packet of
another channel is handed to the parser for 1000 ticks. -/
theorem hand_overs_exclusive (HeadStbLowValid : UInt8) (time : Nat)
    (hrun : ReflTransGen (Runs.Guarded (Step env) Timely) (init HeadStbLowValid time) w) :
    Exclusive w.handed :=
  (Runs.guarded_invariant (I := Owned) (fun _ _ => step_owned) hrun (init_owned _ _)).exclusive

/-- A step is timely while the timer was written since the owner took the printer. -/
theorem Timely.of_le (h : w.taken ≤ w.written) : Timely w w' := fun _ _ => .inl h

/-- Ticks pass. -/
theorem waits (w : World) (n : Nat) :
    ReflTransGen (Runs.Guarded (Step env) Timely) w { w with time := w.time + n } := by
  induction n with
  | zero => exact .refl
  | succ n ih => exact ih.tail ⟨.tick _, fun hne hidle => absurd hidle hne⟩

/-- A packet of SPP is handed over, the printer is given back 1000 ticks later, and a packet of WiFi
is handed over in the same tick. -/
theorem hand_overs_exclusive_two :
    ∃ w, ReflTransGen (Runs.Guarded (Step .stored) Timely) (init 2 0) w ∧
      w.handed = [(1000, .C_Type_Net), (0, .C_Type_SSP)] ∧ Exclusive w.handed := by
  have hrun : ∃ w, ReflTransGen (Runs.Guarded (Step .stored) Timely) (init 2 0) w ∧
      w.handed = [(1000, .C_Type_Net), (0, .C_Type_SSP)] :=
    ⟨_, .head ⟨.receive _ .C_Type_SSP [0x40] rfl, .of_le (Nat.le_refl 0)⟩ <|
      .head ⟨.malloc _ .C_Type_SSP [0x40] [] (by
        simp [World.receive, CType.received, pieces, rcvLen]), .of_le (Nat.le_refl 0)⟩ <|
      .head ⟨.dispatch _ rfl, .of_le (Nat.le_refl 0)⟩ <|
      .head ⟨.poll _ _ rfl, .of_le (Nat.le_refl 0)⟩ <|
      .head ⟨.copyHead _ _ _ _ rfl, .of_le (Nat.le_refl 0)⟩ <|
      .head ⟨.poll _ _ rfl, .of_le (Nat.le_refl 0)⟩ <|
      .head ⟨.copyHead _ _ _ _ rfl, .of_le (Nat.le_refl 0)⟩ <|
      .head ⟨.copyDone _ _ _ _ _ 10 true _ rfl rfl, .of_le (Nat.le_refl 0)⟩ <|
      (waits _ 1000).trans <|
      -- the list of SPP is empty and the timer 1000 ticks old
      .head ⟨.copyHead _ _ _ _ rfl, .of_le (Nat.le_refl 0)⟩ <|
      .head ⟨.receive _ .C_Type_Net [0x23] rfl, .of_le (Nat.le_refl 0)⟩ <|
      .head ⟨.malloc _ .C_Type_Net [0x23] [] (by
        simp [World.receive, CType.received, pieces, rcvLen]), .of_le (Nat.le_refl 0)⟩ <|
      .head ⟨.poll _ _ rfl, .of_le (Nat.le_refl 0)⟩ <|
      .head ⟨.copyHead _ _ _ _ rfl, .of_le (Nat.le_refl 0)⟩ <|
      .head ⟨.poll _ _ rfl, .of_le (Nat.le_refl 0)⟩ <|
      .head ⟨.copyHead _ _ _ _ rfl, .of_le (Nat.le_refl 0)⟩ .refl, rfl⟩
  obtain ⟨w, hrun, hhanded⟩ := hrun
  exact ⟨w, hrun, hhanded, hand_overs_exclusive 2 0 hrun⟩

/-- **A stale idle timer mixes two jobs.** 5000 ticks after boot a packet arrives over SPP and one
over WiFi. The SPP packet takes the printer, the list is empty then, and the timer, never written,
is 5000 ticks old: the printer is given back, and the WiFi packet is handed over in the same
tick. -/
theorem stale_timer_mixes :
    ∃ w, ReflTransGen (Step .stored) (init 2 5000) w ∧
      w.handed = [(5000, .C_Type_Net), (5000, .C_Type_SSP)] ∧ ¬ Exclusive w.handed := by
  have hrun : ∃ w, ReflTransGen (Step .stored) (init 2 5000) w ∧
      w.handed = [(5000, .C_Type_Net), (5000, .C_Type_SSP)] :=
    -- both packets are queued; the data task polls USB and SPP, releases SPP, polls BLE and WiFi
    ⟨_, (((ReflTransGen.refl.tail (.receive _ .C_Type_SSP [0x40] rfl)).tail
      (.malloc _ .C_Type_SSP [0x40] [] (by
        simp [World.receive, CType.received, pieces, rcvLen]))).tail
      (.receive _ .C_Type_Net [0x23] rfl)).tail
      (.malloc _ .C_Type_Net [0x23] [] (by
        simp [World.receive, World.malloc, CType.received, pieces, rcvLen]))
      |>.tail (.dispatch _ rfl)
      |>.tail (.poll _ _ rfl) |>.tail (.copyHead _ _ _ _ rfl)
      |>.tail (.poll _ _ rfl) |>.tail (.copyHead _ _ _ _ rfl)
      |>.tail (.copyDone _ _ _ _ _ 10 true _ rfl rfl) |>.tail (.copyHead _ _ _ _ rfl)
      |>.tail (.poll _ _ rfl) |>.tail (.copyHead _ _ _ _ rfl)
      |>.tail (.poll _ _ rfl) |>.tail (.copyHead _ _ _ _ rfl), rfl⟩
  obtain ⟨w, hrun, hhanded⟩ := hrun
  refine ⟨w, hrun, hhanded, ?_⟩
  intro h
  rw [hhanded] at h
  have := (List.pairwise_cons.1 h).1 (5000, .C_Type_SSP) (by simp) (by decide)
  omega

end World

end ThermalPrinter
