import Mathlib.Data.List.DropRight
import Mathlib.Data.List.Rotate

/-!
# Ring buffers

A ring buffer of `c` places is written at one place after the other, from the first again after the
last. It keeps the latest `c` entries written, and the next place to write is that of the oldest of
them.
-/

namespace Ring

open List

variable {α : Type*} {c : Nat} {buf hist : List α}

/-- `buf` is a ring buffer of `c` places to which the entries of `hist` were written in order. -/
structure Holds (c : Nat) (buf hist : List α) : Prop where
  length : buf.length = c
  get : ∀ j < hist.length, hist.length ≤ j + c → buf[j % c]? = hist[j]?

/-- A buffer that was not written to may hold anything. -/
theorem Holds.nil (hlen : buf.length = c) : Holds c buf [] := ⟨hlen, nofun⟩

/-- The next place to write is given by the number of entries written. -/
theorem Holds.write (h : Holds c buf hist) (x : α) :
    Holds c (buf.set (hist.length % c) x) (hist ++ [x]) := by
  refine ⟨by rw [length_set, h.length], ?_⟩
  intro j hj hlast
  rw [length_append, length_singleton] at hj hlast
  obtain hlt | rfl := Nat.lt_succ_iff_lt_or_eq.1 hj
  · have hne : hist.length % c ≠ j % c := by
      intro heq
      have hdvd : c ∣ hist.length - j :=
        Nat.dvd_of_mod_eq_zero (Nat.sub_mod_eq_zero_of_mod_eq heq)
      have := Nat.le_of_dvd (Nat.sub_pos_of_lt hlt) hdvd
      omega
    rw [getElem?_set_ne hne, h.get j hlt (by omega), getElem?_append_left hlt]
  · have hc : 0 < c := by omega
    rw [getElem?_set_self (by rw [h.length]; exact Nat.mod_lt _ hc), getElem?_concat_length]

/-- The next place to write is that of the oldest entry. -/
theorem Holds.oldest (h : Holds c buf hist) (hc : 0 < c) (hfull : c ≤ hist.length) :
    buf[hist.length % c]? = hist[hist.length - c]? := by
  rw [← h.get _ (by omega) (by omega), ← Nat.mod_eq_sub_mod hfull]

/-- A buffer that is not full holds the whole history. -/
theorem Holds.take_eq (h : Holds c buf hist) (hle : hist.length ≤ c) :
    buf.take hist.length = hist := by
  refine ext_getElem? fun j => ?_
  obtain hlt | hge := Nat.lt_or_ge j hist.length
  · rw [getElem?_take_of_lt hlt, ← h.get j hlt (by omega), Nat.mod_eq_of_lt (by omega)]
  · rw [getElem?_eq_none (by rw [length_take]; omega), getElem?_eq_none hge]

/-- A full buffer holds the latest entries, from the oldest on. -/
theorem Holds.rotate_eq (h : Holds c buf hist) (hfull : c ≤ hist.length) :
    buf.rotate hist.length = hist.rtake c := by
  refine ext_getElem? fun j => ?_
  obtain hlt | hge := Nat.lt_or_ge j c
  · have hmod : (j + hist.length) % c = (hist.length - c + j) % c := by
      rw [show j + hist.length = hist.length - c + j + c by omega, Nat.add_mod_right]
    rw [getElem?_rotate (by rwa [h.length]), h.length, hmod, h.get _ (by omega) (by omega), rtake,
      getElem?_drop]
  · rw [getElem?_eq_none (by rwa [length_rotate, h.length]),
      getElem?_eq_none (by rw [rtake, length_drop]; omega)]

/-- The places in use hold the latest entries, in some order. -/
theorem Holds.take_perm (h : Holds c buf hist) :
    buf.take (min c hist.length) ~ hist.rtake c := by
  obtain hle | hfull := Nat.le_total hist.length c
  · rw [Nat.min_eq_right hle, h.take_eq hle, rtake, Nat.sub_eq_zero_of_le hle, drop_zero]
  · rw [Nat.min_eq_left hfull, take_of_length_le h.length.le, ← h.rotate_eq hfull]
    exact (rotate_perm _ _).symm

/-- The first place of the buffer is in use from the first entry on. -/
theorem Holds.first (h : Holds c buf hist) (hc : 0 < c) (hne : hist ≠ []) :
    ∃ x ∈ hist, buf[0]? = some x := by
  have hpos : 0 < hist.length := length_pos_iff.2 hne
  have hmul := Nat.div_mul_le_self (hist.length - 1) c
  have hlast := Nat.lt_div_mul_add hc (a := hist.length - 1)
  have hget := h.get ((hist.length - 1) / c * c) (by omega) (by omega)
  obtain ⟨x, hx⟩ : ∃ x, hist[(hist.length - 1) / c * c]? = some x :=
    ⟨_, getElem?_eq_getElem (by omega)⟩
  rw [Nat.mul_mod_left, hx] at hget
  exact ⟨x, mem_of_getElem? hx, hget⟩

end Ring
