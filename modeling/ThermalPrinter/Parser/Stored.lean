import ThermalPrinter.Parser.Inflate

/-!
# zlib on a stored block

A concrete zlib for runs on fixed inputs: it inflates raw deflate data that consist of one final
stored block, as `inflate` does, and rejects everything else.
-/

namespace ThermalPrinter

/-- The content of a single stored block: the byte 1, the length and its complement, low byte
first, and the bytes. -/
def storedContent : List UInt8 → Option (List UInt8)
  | 1 :: l :: h :: nl :: nh :: rest =>
    if nl = ~~~l ∧ nh = ~~~h ∧ rest.length = l.toNat + 256 * h.toNat then some rest else none
  | _ => none

/-- zlib on data that are one stored block. The stream holds the bytes still to be given out. -/
def Zlib.stored : Zlib where
  z_stream := Option (List UInt8)
  inflateInit2 data := some (storedContent data)
  inflate
    | none, _ => (.Z_DATA_ERROR, [], none)
    | some rest, avail_out =>
      (if rest.length ≤ avail_out then .Z_STREAM_END else .Z_OK, rest.take avail_out,
        some (rest.drop avail_out))
  inflate_le := by
    rintro (_ | rest) avail_out
    · exact Nat.zero_le _
    · exact List.length_take_le ..

/-- Surroundings for runs on fixed inputs: one row is taken in every delay. -/
def Env.stored : Env := ⟨Zlib.stored, fun _ => 1⟩

/-- Stored data inflate without an error. -/
theorem Zlib.stored_fails (rest : List UInt8) : Zlib.stored.fails (some rest) = false := by
  by_cases h : rest.length ≤ DecodeMaxBytes <;> simp [fails, stored, h, ZRet.isError]

/-- Every stream of stored data ends: each full piece shortens it. -/
theorem Zlib.stored_output (strm : Zlib.stored.z_stream) :
    ∃ pieces ended, Zlib.stored.Output strm pieces ended := by
  rcases strm with _ | rest
  · exact ⟨[], false, .error rfl⟩
  · induction hn : rest.length using Nat.strongRecOn generalizing rest with
    | ind n ih =>
      have hret := Zlib.stored_fails rest
      by_cases hlen : rest.length < DecodeMaxBytes
      · exact ⟨[rest.take DecodeMaxBytes], true,
          .last hret (Nat.lt_of_le_of_lt (List.length_take_le' ..) hlen)⟩
      · have hpos : 0 < DecodeMaxBytes := by decide
        obtain ⟨pieces, ended, hout⟩ := ih _
          (by rw [← hn, List.length_drop]; omega) (rest.drop DecodeMaxBytes) rfl
        exact ⟨_, ended, .more hret (List.length_take_of_le (Nat.le_of_not_lt hlen)) hout⟩

theorem Zlib.stored_finite : Zlib.stored.Finite := fun _ strm _ => Zlib.stored_output strm

theorem Env.stored_fair : Env.stored.Fair := fun k => ⟨k, Nat.le_refl k, Nat.one_pos⟩

/-- A value computed from the result of a run shows that the run has a result. -/
theorem exists_ok_of_map {α β : Type*} {x : Except Halt α} {f : α → β} {b : β}
    (h : x.toOption.map f = some b) : ∃ a, x = .ok a ∧ f a = b := by
  cases x with
  | error e => cases h
  | ok a => exact ⟨a, rfl, Option.some.inj h⟩

end ThermalPrinter
