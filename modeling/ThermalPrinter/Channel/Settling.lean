import ThermalPrinter.Channel.Advertising

/-!
# The threads of the BLE server come to rest

`cbk_packet_handler` and `ble_module_enable` hold the mutex around their calls of `set_adv_enable`.
Neither waits for anything while it has it, and every step of a thread brings it nearer to rest
(`rank`). So the threads come to rest in whatever order they go on (`settles`), and what
`discoverable` says of rest is reached.
-/

namespace ThermalPrinter

open Relation

/-- The thread of the stack has the mutex. -/
def StackPlace.Holds : StackPlace → Prop
  | .adv _ | .post => True
  | _ => False

/-- The other thread has the mutex. -/
def TaskPlace.Holds : TaskPlace → Prop
  | .enable _ | .adv _ _ | .post _ => True
  | _ => False

/-- The steps that a call of `set_adv_enable` has left, at most. -/
def AdvPlace.left : AdvPlace → Nat
  | .test => 5
  | .look => 4
  | .enter => 3
  | .data => 2
  | .command => 1

theorem AdvPlace.left_pos (p : AdvPlace) : 0 < p.left := by cases p <;> decide

/-- The steps that the thread of the stack has left with an event, at most. -/
def StackPlace.left : StackPlace → Nat
  | .idle => 0
  | .connected => 1
  | .disconnected => 8
  | .pend => 7
  | .adv p => p.left + 1
  | .post => 1

/-- The steps that the other thread has left in its call, at most. -/
def TaskPlace.left : TaskPlace → Nat
  | .rest => 0
  | .restart p => p.left
  | .post _ => 6
  | .adv _ p => p.left + 6
  | .enable _ => 12
  | .pend _ => 13
  | .ready _ => 14
  | .copy _ => 15
  | .stop p => p.left + 15

namespace Advertiser

/-- Each thread has the mutex where its code says so. -/
structure Locked (s : Advertiser) : Prop where
  stack : s.stack.Holds ↔ s.mutex = some .stack
  task : s.task.Holds ↔ s.mutex = some .task

/-- The steps that the threads have left, at most. -/
def rank (s : Advertiser) : Nat := 9 * s.events.length + s.stack.left + s.task.left

variable {s s' : Advertiser} {names : Names} {p : AdvPlace}

/-- A call of `set_adv_enable` leaves the mutex alone, and gets on. -/
theorem set_adv_enable_next (en : Bool) (s : Advertiser) (p : AdvPlace) :
    (s.set_adv_enable en p).1.mutex = s.mutex ∧
      (s.set_adv_enable en p).1.stack = s.stack ∧ (s.set_adv_enable en p).1.task = s.task ∧
      (s.set_adv_enable en p).1.events = s.events ∧ (s.set_adv_enable en p).1.link = s.link ∧
      ∀ p' ∈ (s.set_adv_enable en p).2, p'.left < p.left := by
  refine ⟨by cases p <;> rfl, by cases p <;> rfl, by cases p <;> rfl, by cases p <;> rfl,
    by cases p <;> rfl, ?_⟩
  intro p' hp'
  cases p with
  | test | look =>
    simp only [set_adv_enable, Option.mem_def, ite_eq_iff] at hp'
    rcases hp' with ⟨-, hnone⟩ | ⟨-, hsome⟩
    · cases hnone
    · cases hsome
      decide
  | enter =>
    cases en <;> cases hp' <;> decide
  | data =>
    cases hp'
    decide
  | command => cases hp'

/-- A step of the thread of the stack. -/
theorem Locked.cbk_packet_handler (h : s.Locked) (hgo : s.cbk_packet_handler = some s') :
    s'.Locked ∧ s'.rank < s.rank ∧ s'.link = s.link := by
  have hnone (t : BleThread) : none ≠ some t := (Option.some_ne_none t).symm
  obtain ⟨hstack, htask⟩ := h
  unfold Advertiser.cbk_packet_handler at hgo
  cases hs : s.stack with
  | idle =>
    have hless {event : HciEvent} {events : List HciEvent} {stack : StackPlace}
        (he : s.events = event :: events) (hle : stack.left ≤ 8) :
        9 * events.length + stack.left + s.task.left < s.rank := by
      rw [rank, he, List.length_cons]
      omega
    rw [hs] at hgo hstack
    dsimp only at hgo
    split at hgo
    next => cases hgo
    next he =>
      cases hgo
      exact ⟨⟨hstack, htask⟩, hless he (Nat.le_add_left 1 7), rfl⟩
    next he =>
      cases hgo
      exact ⟨⟨hstack, htask⟩, hless he (Nat.zero_le 8), rfl⟩
    next he =>
      cases hgo
      exact ⟨⟨hstack, htask⟩, hless he le_rfl, rfl⟩
  | connected | disconnected =>
    rw [hs] at hgo hstack
    cases hgo
    refine ⟨⟨hstack, htask⟩, ?_, rfl⟩
    simp [rank, hs, StackPlace.left]
  | pend =>
    rw [hs] at hgo
    dsimp only at hgo
    split at hgo
    next hfree =>
      cases hgo
      rw [hfree] at htask
      have hother : some BleThread.stack ≠ some BleThread.task := by decide
      refine ⟨⟨iff_of_true trivial rfl, ?_⟩, ?_, rfl⟩
      · exact iff_of_false (fun ht => absurd (htask.1 ht) (hnone _)) hother
      · simp [rank, hs, StackPlace.left, AdvPlace.left]
    next => cases hgo
  | adv p =>
    rw [hs] at hgo hstack
    cases hgo
    obtain ⟨hmutex, -, htask', hevents, hlink, hleft⟩ := set_adv_enable_next true s p
    refine ⟨⟨?_, ?_⟩, ?_, hlink⟩
    · dsimp only
      rw [hmutex, ← hstack]
      cases (s.set_adv_enable true p).2 <;> exact Iff.rfl
    · dsimp only
      rw [hmutex, htask', htask]
    · dsimp only [rank]
      rw [hevents, htask', hs]
      cases hnext : (s.set_adv_enable true p).2 with
      | none =>
        have hpos := p.left_pos
        simp only [Option.elim, StackPlace.left]
        omega
      | some p' =>
        have hlt := hleft p' hnext
        simp only [Option.elim, StackPlace.left]
        omega
  | post =>
    rw [hs] at hgo hstack
    cases hgo
    have hmine : s.mutex = some .stack := hstack.1 trivial
    rw [hmine] at htask
    have hother : some BleThread.stack ≠ some BleThread.task := by decide
    refine ⟨⟨iff_of_false id (hnone _), ?_⟩, ?_, rfl⟩
    · exact iff_of_false (fun ht => absurd (htask.1 ht) hother) (hnone _)
    · simp [rank, hs, StackPlace.left]

/-- A step of the other thread's calls of `set_adv_enable`. -/
theorem Locked.task_adv (h : s.Locked) (en : Bool) {place : AdvPlace → TaskPlace}
    {behind : TaskPlace} (hs : s.task = place p)
    (hholds : ∀ p', (place p').Holds ↔ (place p).Holds) (hbehind : behind.Holds ↔ (place p).Holds)
    (hleft : ∀ p', (place p').left = p'.left + behind.left) :
    let s' := { (s.set_adv_enable en p).1 with
      task := (s.set_adv_enable en p).2.elim behind place }
    s'.Locked ∧ s'.rank < s.rank ∧ s'.link = s.link := by
  intro s'
  obtain ⟨hmutex, hstack, -, hevents, hlink, hlt⟩ := set_adv_enable_next en s p
  have htask := h.task
  rw [hs] at htask
  refine ⟨⟨?_, ?_⟩, ?_, hlink⟩
  · change (s.set_adv_enable en p).1.stack.Holds ↔ (s.set_adv_enable en p).1.mutex = some .stack
    rw [hmutex, hstack, h.stack]
  · change ((s.set_adv_enable en p).2.elim behind place).Holds ↔
      (s.set_adv_enable en p).1.mutex = some .task
    rw [hmutex, ← htask]
    cases (s.set_adv_enable en p).2 with
    | none => exact hbehind
    | some p' => exact hholds p'
  · change 9 * (s.set_adv_enable en p).1.events.length + (s.set_adv_enable en p).1.stack.left +
      ((s.set_adv_enable en p).2.elim behind place).left < s.rank
    rw [rank, hevents, hstack, hs, hleft]
    cases hnext : (s.set_adv_enable en p).2 with
    | none =>
      have hpos := p.left_pos
      simp only [Option.elim]
      omega
    | some p' =>
      have hlt := hlt p' hnext
      simp only [Option.elim]
      rw [hleft]
      omega

/-- A step of the other thread. -/
theorem Locked.CommandSetBTName (h : s.Locked) (hgo : s.CommandSetBTName = some s') :
    s'.Locked ∧ s'.rank < s.rank ∧ s'.link = s.link := by
  have hnone (t : BleThread) : none ≠ some t := (Option.some_ne_none t).symm
  have hother : some BleThread.task ≠ some BleThread.stack := by decide
  have hstack := h.stack
  have htask := h.task
  unfold Advertiser.CommandSetBTName at hgo
  cases hs : s.task with
  | rest =>
    rw [hs] at hgo
    cases hgo
  | stop p =>
    rw [hs] at hgo
    cases hgo
    exact h.task_adv false hs (fun _ => Iff.rfl) Iff.rfl fun _ => rfl
  | copy again | ready again | enable again =>
    rw [hs] at hgo htask
    cases hgo
    refine ⟨⟨hstack, htask⟩, ?_, rfl⟩
    simp [rank, hs, TaskPlace.left, AdvPlace.left]
  | pend again =>
    rw [hs] at hgo
    dsimp only at hgo
    split at hgo
    next hfree =>
      cases hgo
      rw [hfree] at hstack
      refine ⟨⟨?_, iff_of_true trivial rfl⟩, ?_, rfl⟩
      · exact iff_of_false (fun ht => absurd (hstack.1 ht) (hnone _)) hother
      · simp [rank, hs, TaskPlace.left]
    next => cases hgo
  | adv again p =>
    rw [hs] at hgo
    cases hgo
    exact h.task_adv true hs (fun _ => Iff.rfl) Iff.rfl fun _ => rfl
  | post again =>
    rw [hs] at hgo htask
    cases hgo
    have hmine : s.mutex = some .task := htask.1 trivial
    rw [hmine] at hstack
    refine ⟨⟨iff_of_false (fun ht => absurd (hstack.1 ht) hother) (hnone _), ?_⟩, ?_, rfl⟩
    · refine iff_of_false ?_ (hnone _)
      cases again <;> exact id
    · cases again <;> simp [rank, hs, TaskPlace.left, AdvPlace.left]
  | restart p =>
    rw [hs] at hgo
    cases hgo
    exact h.task_adv true hs (fun _ => Iff.rfl) Iff.rfl fun _ => rfl

theorem Locked.goes (h : s.Locked) (hgo : s.Goes s') :
    s'.Locked ∧ s'.rank < s.rank ∧ s'.link = s.link := by
  rcases hgo with hgo | hgo
  · exact h.cbk_packet_handler hgo
  · exact h.CommandSetBTName hgo

/-- Unless both threads are at rest, one can go on: whoever has the mutex waits for nothing. -/
theorem Locked.can_go (h : s.Locked) (hbusy : ¬ s.Rests) : ∃ s', s.Goes s' := by
  by_contra hstuck
  rw [not_exists] at hstuck
  have hstack' : s.cbk_packet_handler = none :=
    Option.eq_none_iff_forall_ne_some.2 fun s' hgo => hstuck s' (.inl hgo)
  have htask' : s.CommandSetBTName = none :=
    Option.eq_none_iff_forall_ne_some.2 fun s' hgo => hstuck s' (.inr hgo)
  have htask : s.task = .rest ∨ (∃ again, s.task = .pend again) ∧ s.mutex ≠ none := by
    unfold Advertiser.CommandSetBTName at htask'
    cases hs : s.task with
    | rest => exact .inl rfl
    | pend again =>
      refine .inr ⟨⟨again, rfl⟩, fun hfree => ?_⟩
      rw [hs] at htask'
      dsimp only at htask'
      rw [if_pos hfree] at htask'
      cases htask'
    | stop | copy | ready | enable | adv | post | restart =>
      rw [hs] at htask'
      cases htask'
  have hstack : s.stack = .idle ∧ s.events = [] ∨ s.stack = .pend ∧ s.mutex ≠ none := by
    unfold Advertiser.cbk_packet_handler at hstack'
    cases hs : s.stack with
    | idle =>
      rw [hs] at hstack'
      dsimp only at hstack'
      split at hstack'
      next he => exact .inl ⟨rfl, he⟩
      all_goals cases hstack'
    | pend =>
      refine .inr ⟨rfl, fun hfree => ?_⟩
      rw [hs] at hstack'
      dsimp only at hstack'
      rw [if_pos hfree] at hstack'
      cases hstack'
    | connected | disconnected | adv | post =>
      rw [hs] at hstack'
      cases hstack'
  -- neither thread is where it would have the mutex
  have hfree : s.mutex = none := by
    cases hm : s.mutex with
    | none => rfl
    | some thread =>
      cases thread with
      | stack =>
        have hholds := h.stack.2 hm
        rcases hstack with ⟨hs, -⟩ | ⟨hs, -⟩
        all_goals
          rw [hs] at hholds
          exact hholds.elim
      | task =>
        have hholds := h.task.2 hm
        rcases htask with hs | ⟨⟨_, hs⟩, -⟩
        all_goals
          rw [hs] at hholds
          exact hholds.elim
  obtain ⟨hs, he⟩ := hstack.resolve_right fun hpend => hpend.2 hfree
  exact hbusy ⟨hs, he, htask.resolve_right fun hpend => hpend.2 hfree⟩

theorem locked_of_run (h : ReflTransGen Step (init names) s) : s.Locked := by
  refine Runs.invariant (I := Locked) ?_ h ⟨iff_of_false id nofun, iff_of_false id nofun⟩
  intro s s' hlocked hstep
  cases hstep with
  | connect | subscribe | disconnect => exact ⟨hlocked.stack, hlocked.task⟩
  | rename payload mac_addr hrest =>
    have htask := hlocked.task
    rw [hrest] at htask
    exact ⟨hlocked.stack, htask⟩
  | goes _ hgo => exact (hlocked.goes hgo).1

/-- **The threads come to rest**, after no more steps than they have left, if no peer comes or goes
and no command is sent: in whatever order they go on, neither waits for the other for ever. If no
peer is connected, the printer advertises then. -/
theorem settles (h : ReflTransGen Step (init names) s) {f : ℕ → Advertiser} (hstart : f 0 = s)
    (hgoes : ∀ n t, (f n).Goes t → (f n).Goes (f (n + 1))) :
    ∃ n ≤ s.rank, (f n).Rests ∧ (s.link = none → (f n).advertising = true) := by
  induction hrank : s.rank using Nat.strong_induction_on generalizing s f with
  | _ rank ih =>
    by_cases hrests : s.Rests
    · refine ⟨0, Nat.zero_le _, ?_, fun hlink => ?_⟩
      · rwa [hstart]
      · rw [hstart]
        exact ((inv_of_run h).rests hrests hlink).1
    · obtain ⟨t, ht⟩ := (locked_of_run h).can_go hrests
      have hgo := hgoes 0 t (by rwa [hstart])
      rw [hstart] at hgo
      obtain ⟨-, hlt, hlink⟩ := (locked_of_run h).goes hgo
      obtain ⟨n, hn, hrests, hadv⟩ := ih (f 1).rank (hrank ▸ hlt) (h.tail (.goes _ _ hgo))
        (f := fun n => f (n + 1)) rfl (fun n => hgoes (n + 1)) rfl
      exact ⟨n + 1, hrank ▸ hn.trans_lt hlt, hrests, fun hnone => hadv (hlink.trans hnone)⟩

/-- Behind boot. -/
theorem settles_boot : ∃ n ≤ 15, Rests (goOn^[n] (init Names.init)) ∧
    (goOn^[n] (init Names.init)).advertising = true := by
  have hgoes (n : ℕ) (t : Advertiser) (hgo : (goOn^[n] (init Names.init)).Goes t) :
      (goOn^[n] (init Names.init)).Goes (goOn^[n + 1] (init Names.init)) := by
    rw [Function.iterate_succ_apply']
    exact goes_goOn hgo
  obtain ⟨n, hn, hrests, hadvertising⟩ :=
    settles (f := fun n => goOn^[n] (init Names.init)) .refl rfl hgoes
  exact ⟨n, hn, hrests, hadvertising rfl⟩

end Advertiser

end ThermalPrinter
