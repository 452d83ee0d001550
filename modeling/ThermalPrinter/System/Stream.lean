import ThermalPrinter.Channel.Delivery
import ThermalPrinter.System.Rows

/-!
# The parser reads what arrived

The timer takes rows from the queue while the data task is inside `PrintDataManagement`, and the
receivers queue pieces meanwhile. None of this changes what the parser does: in every run without a
self test, the executed commands, the decoder and the unread bytes are what the accepted packets do
one after another, and the accepted packets of a channel are what arrived on it, in order
(`stream_read`). So two runs that accepted the same packets executed the same commands
(`interleaving_invisible`).
-/

namespace ThermalPrinter

open Relation

namespace Firmware

variable {z : Zlib} {σ τ : Firmware z} {v : UInt8} {time : Nat}

/-- The packets that were accepted from a channel. -/
def fedBy (c : CType) (fed : List (CType × List UInt8)) : List (List UInt8) :=
  (fed.filter fun p => p.1 = c).map Prod.snd

/-- The packets were read by a printer, up to its last state. -/
structure Read (z : Zlib) (v : UInt8) (fed : List (CType × List UInt8)) (s : Printer) : Prop where
  reads : ReadsAll z (Decoder.init v) [] (fed.map Prod.snd) s.log s.decoder s.remainder
  tidy : s.decoder.Tidy

/-- Outside `PrintDataManagement` the accepted packets have been read; inside it all but the last
one have, and the calls that are left have come from reading that one. -/
def Reading (v : UInt8) (σ : Firmware z) : Prop :=
  match σ.calls with
  | none => Read z v σ.fed σ.printer
  | some calls => ∃ fed c data s n, σ.fed = fed ++ [(c, data)] ∧ Read z v fed s ∧
      (Printer.dataTask z).Run Printer.Taken n (s.realloc data) [.PrintDataProcesser]
        σ.printer calls

/-- The packets that were accepted from each channel, less the one in hand, are the channel's. -/
def Sorted (σ : Firmware z) : Prop :=
  match σ.calls with
  | none => ∀ c, fedBy c σ.fed = σ.world.accepted c
  | some _ => ∃ fed c count data rest, σ.fed = fed ++ [(c, data)] ∧
      σ.world.pc = .manage c count data rest ∧ ∀ c, fedBy c fed = σ.world.accepted c

theorem init_read : Read z v [] (Printer.init v) := ⟨.nil, .inl ⟨rfl, rfl⟩⟩

/-- Rows that leave the queue change nothing of it. -/
theorem Reading.taken (h : σ.Reading v) {rows : List LinkedListData} (hq : rows <:+ σ.queue)
    {job : Job} :
    Reading v { σ.setPrinter { σ.printer with PrintBLink := rows } with job := job } := by
  unfold Reading at h ⊢
  split at h
  next hcalls =>
    simp only [setPrinter, hcalls]
    exact ⟨h.reads, h.tidy⟩
  next calls hcalls =>
    obtain ⟨fed, c, data, s, n, hfed, hread, hrun⟩ := h
    obtain ⟨gone, hgone⟩ := hq
    simp only [setPrinter, hcalls]
    refine ⟨fed, c, data, s, n + 1, hfed, hread, hrun.tail_interrupt ⟨gone.length, ?_⟩⟩
    rw [Printer.takeRows, show σ.printer.PrintBLink = gone ++ rows from hgone.symm, List.drop_left]

/-- Surroundings in which every delay takes a row. -/
def fairEnv (z : Zlib) : Env := ⟨z, fun _ => 1⟩

theorem fair_fairEnv : (fairEnv z).Fair := fun k => ⟨k, Nat.le_refl k, Nat.one_pos⟩

/-- Every action but a self test keeps the reading. -/
theorem Reading.step (hfin : z.Finite) (h : σ.Reading v) (hstep : Step False σ τ) :
    τ.Reading v := by
  cases hstep with
  | goes w hw =>
    unfold Reading at h ⊢
    rw [show ({ σ with world := w } : Firmware z).printer = σ.printer from hw.printer.1]
    exact h
  | refuse c count data rest hpc hcalls =>
    unfold Reading at h ⊢
    rw [hcalls] at h
    simp only [hcalls]
    exact h
  | accept c count data rest hpc hcalls =>
    unfold Reading at h
    rw [hcalls] at h
    exact ⟨σ.fed, c, data, σ.printer, 0, rfl, h, .refl⟩
  | call call calls new printer hcalls hcall =>
    unfold Reading at h
    rw [hcalls] at h
    obtain ⟨fed, c, data, s, n, hfed, hread, hrun⟩ := h
    exact ⟨fed, c, data, s, n + 1, hfed, hread, hrun.tail hcall⟩
  | returned c count data rest hpc hcalls =>
    unfold Reading at h
    rw [hcalls] at h
    obtain ⟨fed, c', data', s, n, hfed, hread, hrun⟩ := h
    obtain ⟨es, hreads, hlog, ht⟩ := Printer.Returns.reads fair_fairEnv hfin
      hread.tidy .refl hrun
    refine ⟨?_, ht⟩
    rw [show ({ σ with world := σ.world.copyDone c count data rest true σ.printer,
                       calls := none } : Firmware z).fed = fed ++ [(c', data')] from hfed,
      List.map_append]
    change ReadsAll z _ _ _ σ.printer.log _ _
    rw [hlog]
    exact hread.reads.snoc hreads
  | onJob a ha =>
    obtain ⟨gone, lines, hq, -, -⟩ := Job.outputs_next (j := σ.current) ha
    exact h.taken ⟨gone, hq.symm⟩
  | selfPrint printer htests => exact htests.elim
  | others job => exact h

/-- A packet of a channel is its own. -/
theorem fedBy_append (c : CType) (fed : List (CType × List UInt8)) (c' : CType)
    (data : List UInt8) :
    fedBy c (fed ++ [(c', data)]) = fedBy c fed ++ if c' = c then [data] else [] := by
  unfold fedBy
  rw [List.filter_append, List.map_append]
  split
  next hc => simp [hc]
  next hc => simp [hc]

/-- An action that accepts nothing, and does not return. -/
theorem Sorted.of_eq (h : σ.Sorted) (hcalls : τ.calls = σ.calls) (hfed : τ.fed = σ.fed)
    (haccepted : τ.world.accepted = σ.world.accepted)
    (hpc : σ.calls ≠ none → τ.world.pc = σ.world.pc) : τ.Sorted := by
  unfold Sorted at h ⊢
  rw [hcalls, hfed, haccepted]
  split at h
  · exact h
  · next calls hcalls' =>
    rw [hpc (by rw [hcalls']; simp)]
    exact h

/-- The data task, inside `PrintDataManagement`, does not go on outside. -/
theorem goes_pc {w : World} (h : σ.Sorted) (hw : σ.world.Goes w) (hcalls : σ.calls ≠ none) :
    w.pc = σ.world.pc := by
  obtain ⟨calls, hsome⟩ := Option.ne_none_iff_exists'.1 hcalls
  unfold Sorted at h
  rw [hsome] at h
  obtain ⟨_, _, _, _, _, _, hpc, -⟩ := h
  cases hw with
  | tick | receive | malloc | Print => rfl
  | dispatch hp | poll _ hp | copyHead _ _ _ hp =>
    rw [hpc] at hp
    cases hp

/-- Every action keeps the packets sorted. -/
theorem Sorted.step {selfTests : Prop} (h : σ.Sorted) (hstep : Step selfTests σ τ) :
    τ.Sorted := by
  cases hstep with
  | goes w hw => exact h.of_eq rfl rfl hw.printer.2 (goes_pc h hw)
  | refuse c count data rest hpc hcalls =>
    exact h.of_eq rfl rfl rfl fun hne => absurd hcalls hne
  | accept c count data rest hpc hcalls =>
    unfold Sorted at h
    rw [hcalls] at h
    exact ⟨σ.fed, c, count, data, rest, rfl, hpc, h⟩
  | call call calls new printer hcalls =>
    unfold Sorted at h
    rw [hcalls] at h
    exact h
  | returned c count data rest hpc hcalls =>
    unfold Sorted at h
    rw [hcalls] at h
    obtain ⟨fed, c', count', data', rest', hfed, hpc', hsorted⟩ := h
    rw [hpc] at hpc'
    cases hpc'
    change ∀ c₁, fedBy c₁ σ.fed = Function.update σ.world.accepted c _ c₁
    intro c₁
    rw [hfed, fedBy_append, hsorted]
    rcases eq_or_ne c c₁ with rfl | hne
    · rw [if_pos rfl, Function.update_self]
    · rw [if_neg hne, Function.update_of_ne hne.symm, List.append_nil]
  | onJob a => exact h.of_eq rfl rfl rfl fun _ => rfl
  | selfPrint => exact h.of_eq rfl rfl rfl fun _ => rfl
  | others => exact h.of_eq rfl rfl rfl fun _ => rfl

/-- Every action keeps what arrived. -/
theorem step_kept {selfTests : Prop} (h : σ.world.Kept) (hstep : Step selfTests σ τ) :
    τ.world.Kept := by
  cases hstep with
  | goes w hw => exact World.step_kept h (hw.step (fairEnv z))
  | refuse c count data rest hpc => exact h.copyDone hpc false _
  | returned c count data rest hpc => exact h.copyDone hpc true _
  | accept | call | onJob | selfPrint => exact h.of_eq rfl rfl rfl rfl h.head
  | others => exact h

/-- A run without a self test keeps the reading. -/
theorem reading_of_run (hfin : z.Finite)
    (hrun : ReflTransGen (Step False) (init z v time) σ) : σ.Reading v :=
  Runs.invariant (fun _ _ hI hstep => hI.step hfin hstep) hrun init_read

/-- A run keeps the packets sorted. -/
theorem sorted_of_run {selfTests : Prop}
    (hrun : ReflTransGen (Step selfTests) (init z v time) σ) : σ.Sorted :=
  Runs.invariant (fun _ _ hI hstep => Sorted.step hI hstep) hrun (fun _ => rfl)

/-- A run keeps what arrived. -/
theorem kept_of_run {selfTests : Prop}
    (hrun : ReflTransGen (Step selfTests) (init z v time) σ) : σ.world.Kept :=
  Runs.invariant (I := fun σ => σ.world.Kept) (fun _ _ hI hstep => step_kept hI hstep) hrun
    (World.init_kept v time)

/-- Outside `PrintDataManagement` the accepted packets have been read. -/
theorem Reading.outside (h : σ.Reading v) (hcalls : σ.calls = none) : Read z v σ.fed σ.printer := by
  unfold Reading at h
  rwa [hcalls] at h

/-- Passes of the parser loop outside a block. -/
theorem passes {selfTests : Prop} {σ₀ : Firmware z} (hrun : ReflTransGen (Step selfTests) σ₀ σ)
    (hcalls : σ.calls = some [.PrintDataProcesser]) (n : Nat)
    (h : ∀ i < n, (Printer.handle^[i] σ.printer).command.ReturnFlag = false ∧
      (Printer.handle^[i] σ.printer).command.DecodeStatus ≠ .CommandZipData) :
    ReflTransGen (Step selfTests) σ₀ (σ.setPrinter (Printer.handle^[n] σ.printer)) := by
  induction n with
  | zero => exact hrun
  | succ n ih =>
    have hn := h n n.lt_succ_self
    have hstep := (ih fun i hi => h i (hi.trans n.lt_succ_self)).tail
      (.call _ .PrintDataProcesser [] _ _ hcalls (Printer.call_handle hn.1 hn.2))
    rw [Function.iterate_succ_apply']
    simpa only [setPrinter, hcalls, List.append_nil] using hstep

/-- **The parser reads what arrived, whatever the interleaving.** In every run without a self test,
whenever the data task is outside `PrintDataManagement`: the executed commands, the decoder and the
unread bytes are what the accepted packets do one after another; and the packets accepted from a
channel, with those in its list and the pieces still to be queued, are what arrived on it. -/
theorem stream_read (hfin : z.Finite)
    (hrun : ReflTransGen (Step False) (init z v time) σ) (hcalls : σ.calls = none) :
    ReadsAll z (Decoder.init v) [] (σ.fed.map Prod.snd) σ.printer.log σ.printer.decoder
        σ.printer.remainder ∧
      ∀ c, (fedBy c σ.fed).flatten ++
        ((σ.world.DP c).flatten ++ (σ.world.pending c).flatten) = σ.world.arrived c := by
  have hsorted := sorted_of_run hrun
  unfold Sorted at hsorted
  rw [hcalls] at hsorted
  refine ⟨((reading_of_run hfin hrun).outside hcalls).reads, fun c => ?_⟩
  rw [hsorted c]
  exact (kept_of_run hrun).whole c

/-- A density command arrives on the USB channel and is executed. -/
theorem stream_read_density :
    ∃ σ : Firmware Zlib.stored, σ.printer.log = [.density 48] ∧
      ReadsAll Zlib.stored (Decoder.init 2) [] (σ.fed.map Prod.snd) σ.printer.log
        σ.printer.decoder σ.printer.remainder ∧
      ∀ c, (fedBy c σ.fed).flatten ++
        ((σ.world.DP c).flatten ++ (σ.world.pending c).flatten) = σ.world.arrived c := by
  have h₁ : ReflTransGen (Step False) (init Zlib.stored 2 0) _ :=
    .single (.goes _ _ (.receive _ .C_Type_USB [0x40, 0x53, 0x7E, 0x7E, 0x30, 0x40] rfl))
  have h₂ := h₁.tail (.goes _ _ (.malloc _ .C_Type_USB _ [] rfl))
  have h₃ := (h₂.tail (.goes _ _ (.dispatch _ rfl))).tail (.goes _ _ (.poll _ _ rfl))
  have h₄ := h₃.tail (.goes _ _ (.copyHead _ .C_Type_USB 0 _ rfl))
  have h₅ := h₄.tail (.accept _ .C_Type_USB 0 _ _ rfl rfl (by decide))
  have h₆ := passes h₅ rfl 3 (by decide +kernel)
  have h₇ := h₆.tail (.call _ .PrintDataProcesser [] _ _ rfl
    (Printer.call_returned (by decide +kernel)))
  exact ⟨_, by decide +kernel, stream_read Zlib.stored_finite
    (h₇.tail (.returned _ .C_Type_USB 0 _ _ rfl rfl)) rfl⟩

/-- **The interleaving is invisible**: runs without a self test that accepted the same packets have
executed the same commands, whatever the timers, the receivers and the print task did meanwhile. -/
theorem interleaving_invisible (hfin : z.Finite) {time' : Nat}
    (hσ : ReflTransGen (Step False) (init z v time) σ)
    (hτ : ReflTransGen (Step False) (init z v time') τ) (hcσ : σ.calls = none)
    (hcτ : τ.calls = none) (hfed : σ.fed.map Prod.snd = τ.fed.map Prod.snd) :
    σ.printer.log = τ.printer.log ∧ σ.printer.decoder = τ.printer.decoder ∧
      σ.printer.remainder = τ.printer.remainder := by
  obtain ⟨hd, hu, hlog⟩ := ((reading_of_run hfin hσ).outside hcσ).reads.unique
    (hfed ▸ ((reading_of_run hfin hτ).outside hcτ).reads)
  exact ⟨hlog, hd, hu⟩

/-- In one of two runs the tick comes between the acceptance of a command and its execution. -/
theorem interleaving_invisible_tick :
    ∃ σ τ : Firmware Zlib.stored, σ.world.time ≠ τ.world.time ∧ σ.printer.log = [.density 48] ∧
      σ.printer.log = τ.printer.log ∧ σ.printer.decoder = τ.printer.decoder ∧
      σ.printer.remainder = τ.printer.remainder := by
  have h₁ : ReflTransGen (Step False) (init Zlib.stored 2 0) _ :=
    .single (.goes _ _ (.receive _ .C_Type_USB [0x40, 0x53, 0x7E, 0x7E, 0x30, 0x40] rfl))
  have h₂ := h₁.tail (.goes _ _ (.malloc _ .C_Type_USB _ [] rfl))
  have h₃ := (h₂.tail (.goes _ _ (.dispatch _ rfl))).tail (.goes _ _ (.poll _ _ rfl))
  have h₄ := h₃.tail (.goes _ _ (.copyHead _ .C_Type_USB 0 _ rfl))
  have h₅ := h₄.tail (.accept _ .C_Type_USB 0 _ _ rfl rfl (by decide))
  have hσ := ((passes h₅ rfl 3 (by decide +kernel)).tail
    (.call _ .PrintDataProcesser [] _ _ rfl (Printer.call_returned (by decide +kernel)))).tail
    (.returned _ .C_Type_USB 0 _ _ rfl rfl)
  have hτ := ((passes (h₅.tail (.goes _ _ (.tick _))) rfl 3 (by decide +kernel)).tail
    (.call _ .PrintDataProcesser [] _ _ rfl (Printer.call_returned (by decide +kernel)))).tail
    (.returned _ .C_Type_USB 0 _ _ rfl rfl)
  exact ⟨_, _, by decide +kernel, by decide +kernel,
    interleaving_invisible Zlib.stored_finite hσ hτ rfl rfl rfl⟩

end Firmware

end ThermalPrinter
