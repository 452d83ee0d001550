import Mathlib.Data.List.Range
import Mathlib.Data.List.TakeWhile

/-!
# C strings in buffers

The C string of a buffer ends at its first NUL. A buffer without a NUL has none: whoever reads it
runs on behind it. `overwrite` copies characters into a buffer, with no NUL of its own; what is
then read depends on what the buffer held before (`Filled.cstr_overwrite_iff`).
-/

namespace CString

/-! ## Copying into a buffer -/

section
variable {α : Type*} {buf new : List α} {i : Nat}

/-- The buffer with characters copied to place `i`. -/
def overwrite (buf : List α) (i : Nat) (new : List α) : List α :=
  buf.take i ++ new ++ buf.drop (i + new.length)

theorem overwrite_zero : overwrite buf 0 new = new ++ buf.drop new.length := by
  simp [overwrite]

/-- Two copies, the second one right behind the first. -/
theorem overwrite_overwrite (buf new new' : List α) (hi : i ≤ buf.length) :
    overwrite (overwrite buf i new) (i + new.length) new' = overwrite buf i (new ++ new') := by
  have hlen : (buf.take i ++ new).length = i + new.length := by
    rw [List.length_append, List.length_take, Nat.min_eq_left hi]
  unfold overwrite
  have hend : i + new.length + new'.length = (buf.take i ++ new).length + new'.length := by
    rw [hlen]
  rw [hend, ← hlen, List.take_left, List.drop_length_add_append, List.drop_drop, hlen,
    List.length_append, Nat.add_assoc, List.append_assoc _ new]

/-- A loop that copies character by character. -/
theorem foldl_overwrite (f : Nat → α) (n : Nat) :
    (List.range n).foldl (fun buf i => overwrite buf i [f i]) buf =
      overwrite buf 0 ((List.range n).map f) := by
  induction n with
  | zero => simp [overwrite]
  | succ n ih =>
    have hnext := overwrite_overwrite buf ((List.range n).map f) [f n] (Nat.zero_le _)
    rw [List.length_map, List.length_range, Nat.zero_add] at hnext
    rw [List.range_succ, List.foldl_append, ih, List.foldl_cons, List.foldl_nil, hnext,
      List.map_append, List.map_singleton]

end

/-! ## The string of a buffer -/

variable {buf new rest s : List UInt8} {N : Nat}

/-- The characters before the first NUL, which `strlen` counts. -/
def upToNUL (buf : List UInt8) : List UInt8 := buf.takeWhile (· ≠ 0)

/-- The C string of a buffer. -/
def cstr (buf : List UInt8) : Option (List UInt8) := if 0 ∈ buf then some (upToNUL buf) else none

theorem upToNUL_append (hs : 0 ∉ s) : upToNUL (s ++ rest) = s ++ upToNUL rest := by
  refine List.takeWhile_append_of_pos fun c hc => ?_
  simpa using fun h : c = 0 => hs (h ▸ hc)

theorem upToNUL_append_zero (hs : 0 ∉ s) : upToNUL (s ++ 0 :: rest) = s := by
  rw [upToNUL_append hs, upToNUL, List.takeWhile_cons_of_neg (by simp), List.append_nil]

/-- What follows a NUL is not read. -/
theorem upToNUL_append_zero_cons : upToNUL (s ++ 0 :: rest) = upToNUL s := by
  unfold upToNUL
  induction s with
  | nil => simp
  | cons c s ih => rw [List.cons_append, List.takeWhile_cons, List.takeWhile_cons, ih]

theorem take_length_upToNUL (buf : List UInt8) : buf.take (upToNUL buf).length = upToNUL buf :=
  (List.prefix_iff_eq_take.1 (List.takeWhile_prefix _)).symm

theorem length_upToNUL_le : (upToNUL buf).length ≤ buf.length :=
  (List.takeWhile_prefix _).length_le

theorem zero_notMem_upToNUL : 0 ∉ upToNUL buf := by
  intro h
  simpa using List.mem_takeWhile_imp h

/-- A string that is not ended by a NUL runs on into what follows. -/
theorem cstr_append (hs : 0 ∉ s) : cstr (s ++ rest) = (cstr rest).map (s ++ ·) := by
  have hmem : 0 ∈ s ++ rest ↔ 0 ∈ rest := List.mem_append.trans (or_iff_right hs)
  unfold cstr
  simp only [hmem, upToNUL_append hs]
  split <;> rfl

@[simp] theorem cstr_zero_cons : cstr (0 :: rest) = some [] := by simp [cstr, upToNUL]

@[simp] theorem cstr_nil : cstr ([] : List UInt8) = none := rfl

theorem cstr_append_zero (hs : 0 ∉ s) : cstr (s ++ 0 :: rest) = some s := by
  rw [cstr_append hs, cstr_zero_cons, Option.map_some, List.append_nil]

/-- A buffer of `N` characters that holds a string and NULs up to its end. -/
structure Filled (N : Nat) (s buf : List UInt8) : Prop where
  eq : buf = s ++ List.replicate (N - s.length) 0
  notMem : 0 ∉ s
  le : s.length ≤ N

/-- What is read of such a buffer. -/
theorem Filled.cstr_eq (h : Filled N s buf) :
    cstr buf = if s.length < N then some s else none := by
  rw [h.eq]
  split
  next hlt =>
    obtain ⟨k, hk⟩ : ∃ k, N - s.length = k + 1 := Nat.exists_eq_succ_of_ne_zero (by omega)
    rw [hk, List.replicate_succ, cstr_append_zero h.notMem]
  next hge =>
    have hfull : N - s.length = 0 := by omega
    rw [hfull, List.replicate_zero, cstr_append h.notMem, cstr_nil, Option.map_none]

/-- A string copied over another one leaves what was longer of it. -/
theorem Filled.overwrite (h : Filled N s buf) (hnew : 0 ∉ new) (hle : new.length ≤ N) :
    Filled N (new ++ s.drop new.length) (overwrite buf 0 new) where
  eq := by
    rw [overwrite_zero, h.eq, List.drop_append, List.drop_replicate, List.append_assoc]
    congr 3
    rw [List.length_append, List.length_drop]
    omega
  notMem := by
    rw [List.mem_append]
    exact fun hmem => hmem.elim hnew fun hold => h.notMem (List.mem_of_mem_drop hold)
  le := by
    have := h.le
    rw [List.length_append, List.length_drop]
    omega

/-- **The string that was copied is the one that is read** exactly if the old one was not longer and
a NUL is left in the buffer. -/
theorem Filled.cstr_overwrite_iff (h : Filled N s buf) (hnew : 0 ∉ new) (hle : new.length ≤ N) :
    cstr (CString.overwrite buf 0 new) = some new ↔ s.length ≤ new.length ∧ new.length < N := by
  have hlen : (new ++ s.drop new.length).length = max s.length new.length := by
    rw [List.length_append, List.length_drop]
    omega
  rw [(h.overwrite hnew hle).cstr_eq, hlen]
  constructor
  · intro hread
    split at hread
    next hlt =>
      have hdrop := congrArg List.length (Option.some.inj hread)
      rw [hlen] at hdrop
      omega
    next => cases hread
  · rintro ⟨hold, hlt⟩
    rw [if_pos (by omega), List.drop_of_length_le hold, List.append_nil]

end CString
