import ThermalPrinter.Channel.Tasks

/-!
# No byte is lost between a receiver and the parser

For every channel, the packets that the parser accepted, the packets still queued and the pieces
still to be queued are together what arrived, in order (`Kept`). The data task copies the head of a
list and removes it only after the parser accepted it, while receivers append; so what the invariant
needs of the place of the task is that the packet in hand is still the head of its list.
-/

namespace ThermalPrinter

open Relation

/-- The pieces of a buffer are the buffer. -/
theorem pieces_flatten (data : List UInt8) (i : Nat) : (pieces data i).flatten = data.drop i := by
  induction i using pieces.induct data with
  | case1 i hlt ih =>
    rw [pieces, if_pos hlt, List.flatten_cons, ih]
    by_cases hmore : i + rcvLen < data.length
    · simp only [if_pos hmore]
      rw [← List.drop_drop, List.take_append_drop]
    · simp only [if_neg hmore]
      rw [List.take_of_length_le (l := data.drop i) (by simp),
        List.drop_of_length_le (i := i + rcvLen) (by omega), List.append_nil]
  | case2 i hge => rw [pieces, if_neg hge, List.drop_of_length_le (by omega), List.flatten_nil]

/-- A piece has between 1 and 64 bytes. -/
theorem pieces_length (data : List UInt8) (i : Nat) :
    ∀ p ∈ pieces data i, 1 ≤ p.length ∧ p.length ≤ rcvLen := by
  induction i using pieces.induct data with
  | case1 i hlt ih =>
    rw [pieces, if_pos hlt]
    intro p hp
    rcases List.mem_cons.1 hp with rfl | hp
    · have h64 : rcvLen = 64 := rfl
      simp only [List.length_take, List.length_drop]
      split <;> omega
    · exact ih p hp
  | case2 i hge =>
    rw [pieces, if_neg hge]
    exact fun p hp => absurd hp (List.not_mem_nil)

namespace World

variable {w w' : World} {env : Env}

/-- Nothing is lost, the packet in hand is the head of its list, and the pieces of the channels that
cut buffers have between 1 and 64 bytes. -/
structure Kept (w : World) : Prop where
  whole : ∀ c, (w.accepted c).flatten ++ ((w.DP c).flatten ++ (w.pending c).flatten) = w.arrived c
  head : ∀ c count data rest, w.pc = .manage c count data rest → ∃ q, w.DP c = data :: q
  sized : ∀ c, c ≠ .C_Type_USB → ∀ p ∈ w.DP c ++ w.pending c, 1 ≤ p.length ∧ p.length ≤ rcvLen

/-- At boot nothing has arrived. -/
theorem init_kept (HeadStbLowValid : UInt8) (time : Nat) : (init HeadStbLowValid time).Kept where
  whole _ := rfl
  head _ _ _ _ h := by cases h
  sized _ _ p hp := absurd hp (List.not_mem_nil)

theorem Kept.receive (h : w.Kept) (c : CType) (data : List UInt8) (hp : w.pending c = []) :
    (w.receive c data).Kept where
  whole c' := by
    simp only [World.receive]
    by_cases hc : c' = c
    · subst hc
      have hall : (c'.received data).flatten = data := by
        unfold CType.received
        split
        · simp
        · rw [pieces_flatten, List.drop_zero]
      have hw := h.whole c'
      rw [hp, List.flatten_nil, List.append_nil] at hw
      rw [Function.update_self, Function.update_self, hall, ← hw, List.append_assoc]
    · rw [Function.update_of_ne hc, Function.update_of_ne hc]
      exact h.whole c'
  head := h.head
  sized c' hne p hmem := by
    simp only [World.receive] at hmem
    by_cases hc : c' = c
    · subst hc
      rw [Function.update_self] at hmem
      rcases List.mem_append.1 hmem with hmem | hmem
      · exact h.sized c' hne p (List.mem_append_left _ hmem)
      · unfold CType.received at hmem
        split at hmem
        · exact absurd rfl hne
        · exact pieces_length data 0 p hmem
    · rw [Function.update_of_ne hc] at hmem
      exact h.sized c' hne p hmem

theorem Kept.malloc (h : w.Kept) {c : CType} {piece : List UInt8} {rest : List (List UInt8)}
    (hp : w.pending c = piece :: rest) : (w.malloc c piece rest).Kept where
  whole c' := by
    simp only [World.malloc]
    by_cases hc : c' = c
    · subst hc
      have hw := h.whole c'
      rw [hp] at hw
      rw [Function.update_self, Function.update_self, ← hw]
      simp
    · rw [Function.update_of_ne hc, Function.update_of_ne hc]
      exact h.whole c'
  head c' count data rest' hpc := by
    -- a piece is appended behind the packet in hand
    obtain ⟨q, hq⟩ := h.head c' count data rest' hpc
    simp only [World.malloc]
    by_cases hc : c' = c
    · subst hc
      rw [Function.update_self, hq]
      exact ⟨q ++ [piece], rfl⟩
    · rw [Function.update_of_ne hc]
      exact ⟨q, hq⟩
  sized c' hne p hmem := by
    simp only [World.malloc] at hmem
    by_cases hc : c' = c
    · subst hc
      rw [Function.update_self, Function.update_self] at hmem
      refine h.sized c' hne p ?_
      rw [hp]
      simpa using hmem
    · rw [Function.update_of_ne hc, Function.update_of_ne hc] at hmem
      exact h.sized c' hne p hmem

/-- An action that leaves the lists alone, and puts no packet in hand. -/
theorem Kept.of_eq (h : w.Kept) (hDP : w'.DP = w.DP) (hpending : w'.pending = w.pending)
    (harrived : w'.arrived = w.arrived) (haccepted : w'.accepted = w.accepted)
    (hpc : ∀ c count data rest, w'.pc = .manage c count data rest →
      ∃ q, w.DP c = data :: q) : w'.Kept where
  whole c := by rw [hDP, hpending, harrived, haccepted]; exact h.whole c
  head c count data rest hm := by rw [hDP]; exact hpc c count data rest hm
  sized c := by rw [hDP, hpending]; exact h.sized c

theorem Kept.copyHead (h : w.Kept) (c : CType) (count : Nat) (rest : List CType) :
    (w.copyHead c count rest).Kept := by
  unfold World.copyHead
  split
  next data q hq =>
    refine h.of_eq ?_ ?_ ?_ ?_ ?_
    · simp only []; split <;> rfl
    · simp only []; split <;> rfl
    · simp only []; split <;> rfl
    · simp only []; split <;> rfl
    · rintro c' count' data' rest' ⟨⟩
      exact ⟨q, hq⟩
  next => exact h.of_eq rfl rfl rfl rfl (fun _ _ _ _ hm => by cases hm)

theorem Kept.copyDone (h : w.Kept) {c : CType} {count : Nat} {data : List UInt8}
    {rest : List CType} (hpc : w.pc = .manage c count data rest) (accepted : Bool)
    (printer : Printer) : (w.copyDone c count data rest accepted printer).Kept := by
  unfold World.copyDone
  cases accepted with
  | false => exact h.of_eq rfl rfl rfl rfl (fun _ _ _ _ hm => by cases hm)
  | true =>
    obtain ⟨q, hq⟩ := h.head c count data rest hpc
    rw [if_pos rfl]
    refine ⟨?_, ?_, ?_⟩
    · intro c'
      -- the head moves from the list to the accepted packets
      by_cases hc : c' = c
      · subst hc
        have hw := h.whole c'
        rw [hq] at hw
        simp only [Function.update_self, hq, List.tail_cons, ← hw]
        simp
      · simp only [Function.update_of_ne hc]
        exact h.whole c'
    · intro c' count' data' rest' hm
      simp only [] at hm
      split at hm <;> cases hm
    · intro c' hne p hmem
      by_cases hc : c' = c
      · subst hc
        simp only [Function.update_self, hq, List.tail_cons] at hmem
        refine h.sized c' hne p ?_
        rw [hq]
        exact List.mem_cons_of_mem _ hmem
      · simp only [Function.update_of_ne hc] at hmem
        exact h.sized c' hne p hmem

/-- Every action keeps what arrived. -/
theorem step_kept (h : w.Kept) (hstep : Step env w w') : w'.Kept := by
  cases hstep with
  | tick => exact h.of_eq rfl rfl rfl rfl h.head
  | receive c data hp => exact h.receive c data hp
  | malloc c piece rest hp => exact h.malloc hp
  | Print => exact h.of_eq rfl rfl rfl rfl h.head
  | takeRows n => exact h.of_eq rfl rfl rfl rfl h.head
  | dispatch =>
    refine h.of_eq rfl rfl rfl rfl ?_
    intro _ _ _ _ hm
    unfold World.dispatch at hm
    cases hmeth : w.method <;> rw [hmeth] at hm <;> cases hm
  | poll rest =>
    cases rest with
    | nil => exact h.of_eq rfl rfl rfl rfl (fun _ _ _ _ hm => by cases hm)
    | cons c rest =>
      refine h.of_eq rfl rfl rfl rfl ?_
      intro _ _ _ _ hm
      simp only [pollNext] at hm
      split at hm <;> cases hm
  | copyHead c count rest => exact h.copyHead c count rest
  | copyDone c count data rest fuel accepted printer hpc => exact h.copyDone hpc accepted printer

/-- **No byte of a job is lost, repeated or reordered between a receiver and the parser.** In every
run, and for every channel that cuts buffers into pieces: the packets accepted from the channel,
followed by the packets in its queue and the pieces its receiver has yet to queue, are what arrived
on it; between two calls of its receiver the queue holds all of the rest. Every queued packet has
between 1 and 64 bytes. -/
theorem bytes_kept (HeadStbLowValid : UInt8) (time : Nat)
    (hrun : ReflTransGen (Step env) (init HeadStbLowValid time) w) (c : CType)
    (hc : c ≠ .C_Type_USB) :
    (w.accepted c).flatten ++ ((w.DP c).flatten ++ (w.pending c).flatten) = w.arrived c ∧
      (w.pending c = [] → (w.accepted c ++ w.DP c).flatten = w.arrived c) ∧
      ∀ p ∈ w.DP c, 1 ≤ p.length ∧ p.length ≤ 64 := by
  have h : w.Kept := Runs.invariant (fun _ _ => step_kept) hrun (init_kept _ _)
  refine ⟨h.whole c, ?_, fun p hp => h.sized c hc p (List.mem_append_left _ hp)⟩
  intro hp
  have hw := h.whole c
  rw [hp, List.flatten_nil, List.append_nil] at hw
  rw [List.flatten_append, hw]

/-- The pieces that a receiver has cut are queued. -/
theorem queues (env : Env) (w : World) (c : CType) (ps : List (List UInt8))
    (hp : w.pending c = ps) :
    ReflTransGen (Step env) w { w with
      pending := Function.update w.pending c []
      DP := Function.update w.DP c (w.DP c ++ ps) } := by
  induction ps generalizing w with
  | nil =>
    rw [← hp, Function.update_eq_self, hp, List.append_nil, Function.update_eq_self]
  | cons p ps ih =>
    have hrest := ih (w.malloc c p ps) (Function.update_self ..)
    simp only [World.malloc, Function.update_idem, Function.update_self, List.append_assoc,
      List.singleton_append] at hrest
    exact .head (.malloc _ c p ps hp) hrest

/-- The packet at the head of a list is taken in hand. -/
theorem copyHead_spec {c : CType} {data : List UInt8} {q : List (List UInt8)}
    (hq : w.DP c = data :: q) (count : Nat) (rest : List CType) :
    (w.copyHead c count rest).pc = .manage c count data rest ∧
      (w.copyHead c count rest).DP = w.DP ∧ (w.copyHead c count rest).accepted = w.accepted ∧
      (w.copyHead c count rest).printer = w.printer := by
  unfold copyHead
  rw [hq]
  dsimp only
  split <;> exact ⟨rfl, rfl, rfl, rfl⟩

/-- Packets at the head of a list are handed over one after another. -/
theorem copies {c : CType} {rest : List CType} {fuel : Nat} {q : List (List UInt8)} {s : Printer}
    (ps : List (List UInt8)) (count : Nat) (w : World) (hpc : w.pc = .copy c count rest)
    (hcount : count + ps.length ≤ 200) (hq : w.DP c = ps ++ q)
    (hfed : Printer.feedAll env fuel (ps.map (0, ·)) w.printer = .ok (some s)) :
    ∃ w', ReflTransGen (Step env) w w' ∧ w'.pc = .copy c (count + ps.length) rest ∧
      w'.DP c = q ∧ w'.accepted c = w.accepted c ++ ps ∧ w'.printer = s := by
  induction ps generalizing count w with
  | nil =>
    cases hfed
    exact ⟨w, .refl, hpc, hq, (List.append_nil _).symm, rfl⟩
  | cons p ps ih =>
    rw [List.length_cons] at hcount ⊢
    obtain ⟨⟨accepted, s₁⟩, hfeed, hrest⟩ := Printer.bind_eq_ok.1 hfed
    cases accepted with
    | false => cases hrest
    | true =>
      obtain ⟨hmanage, hDP, haccepted, hprinter⟩ := copyHead_spec hq count rest
      have hdone := Step.copyDone _ c count p rest fuel true s₁ hmanage (hprinter ▸ hfeed)
      obtain ⟨w', hrun, hpc', hq', haccepted', hprinter'⟩ := ih (count + 1)
        ((w.copyHead c count rest).copyDone c count p rest true s₁)
        (by simp only [copyDone, if_true, if_neg (show ¬ count > 200 by omega)]) (by omega)
        (by simp only [copyDone, if_true, Function.update_self, hDP, hq]; rfl) hrest
      refine ⟨w', .head (.copyHead w c count rest hpc) (.head hdone hrun), ?_, hq', ?_, hprinter'⟩
      · rw [hpc', Nat.add_assoc, Nat.add_comm 1]
      · rw [haccepted']
        simp only [copyDone, if_true, Function.update_self, haccepted, List.append_assoc,
          List.singleton_append]

/-- Eight black rows in 64 bytes. -/
def blackRows : List UInt8 :=
  (List.replicate 8 [0x23, 0x3C, 0x81, 0xFF, 0x81, 0xFF, 0x81, 0x3F]).flatten

/-- A buffer of 52 pieces of black rows arrives over WiFi. The parser accepts 51 of them and refuses
the last one. -/
theorem bytes_kept_refused :
    ∃ w, ReflTransGen (Step .stored) (init 2 0) w ∧
      w.accepted .C_Type_Net = List.replicate 51 blackRows ∧ w.DP .C_Type_Net = [blackRows] ∧
      PrintLinkedListCount ≤ w.printer.PrintBLink.length ∧ w.pc = .poll [] ∧
      ((w.accepted .C_Type_Net).flatten ++
            ((w.DP .C_Type_Net).flatten ++ (w.pending .C_Type_Net).flatten) =
          w.arrived .C_Type_Net ∧
        (w.pending .C_Type_Net = [] →
          (w.accepted .C_Type_Net ++ w.DP .C_Type_Net).flatten = w.arrived .C_Type_Net) ∧
        ∀ p ∈ w.DP .C_Type_Net, 1 ≤ p.length ∧ p.length ≤ 64) := by
  have hpieces : pieces (List.replicate 52 blackRows).flatten 0 =
      List.replicate 52 blackRows := by
    decide +kernel
  obtain ⟨s, hfed, hfull⟩ : ∃ s, Printer.feedAll .stored 100
      ((List.replicate 51 blackRows).map (0, ·)) (.init 2) = .ok (some s) ∧
        PrintLinkedListCount ≤ s.PrintBLink.length := by
    have hrows : (Printer.feedAll .stored 100 ((List.replicate 51 blackRows).map (0, ·))
        (.init 2)).toOption.join.any (PrintLinkedListCount ≤ ·.PrintBLink.length) := by
      decide +kernel
    revert hrows
    generalize Printer.feedAll .stored 100 ((List.replicate 51 blackRows).map (0, ·)) (.init 2) = r
    intro hrows
    obtain _ | _ | s := r
    · cases hrows
    · cases hrows
    · exact ⟨s, rfl, of_decide_eq_true hrows⟩
  obtain ⟨w, hcalled, hpc, hDP, haccepted, hprinter⟩ : ∃ w : World,
      ReflTransGen (Step .stored) (init 2 0) w ∧ w.pc = .copy .C_Type_Net 0 [] ∧
      w.DP .C_Type_Net = List.replicate 51 blackRows ++ [blackRows] ∧
      w.accepted .C_Type_Net = [] ∧ w.printer = .init 2 :=
    ⟨_, .head (.receive _ .C_Type_Net (List.replicate 52 blackRows).flatten rfl) <|
      (queues _ _ .C_Type_Net (List.replicate 52 blackRows) hpieces).trans <|
      .head (.dispatch _ rfl) <| .head (.poll _ _ rfl) <| .head (.copyHead _ _ _ _ rfl) <|
      .head (.poll _ _ rfl) <| .head (.copyHead _ _ _ _ rfl) <|
      .head (.poll _ _ rfl) <| .head (.copyHead _ _ _ _ rfl) <|
      .head (.poll _ _ rfl) .refl, rfl, rfl, rfl, rfl⟩
  obtain ⟨w₁, hcopied, hpc₁, hDP₁, haccepted₁, hprinter₁⟩ :=
    copies (List.replicate 51 blackRows) 0 w hpc (by decide) hDP (hprinter ▸ hfed)
  obtain ⟨hmanage, hDP₂, haccepted₂, hprinter₂⟩ := copyHead_spec hDP₁ 51 []
  have hroom : ¬ (w₁.copyHead .C_Type_Net 51 []).printer.PrintBLink.length <
      PrintLinkedListCount := by
    rw [hprinter₂, hprinter₁]
    exact Nat.not_lt.2 hfull
  have hrefused : Step .stored _ _ := .copyDone _ .C_Type_Net 51 blackRows [] 0 false _ hmanage
    (Printer.feed_refused hroom 0)
  have hrun := (hcalled.trans hcopied).tail (.copyHead w₁ .C_Type_Net 51 [] hpc₁) |>.tail hrefused
  have hall : (w₁.copyHead .C_Type_Net 51 []).accepted .C_Type_Net =
      List.replicate 51 blackRows := by
    rw [haccepted₂, haccepted₁, haccepted, List.nil_append]
  exact ⟨_, hrun, hall, hDP₂ ▸ hDP₁, hprinter₂ ▸ hprinter₁ ▸ hfull, rfl,
    bytes_kept 2 0 hrun .C_Type_Net (by decide)⟩

end World

end ThermalPrinter
