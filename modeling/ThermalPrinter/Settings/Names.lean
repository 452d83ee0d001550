import Mathlib.Logic.Function.Basic
import Mathlib.Tactic.IntervalCases
import ThermalPrinter.Lib.CString
import ThermalPrinter.Parser.Handlers

/-!
# The names of the printer

`CommandSetBTName` puts the name that the host sends, with the end of the Bluetooth address, into
`edr_name`, and `bt_ble_init` copies it with `(BLE)` behind it into `gap_device_name`. The name in
`edr_name` is always the one meant (`edr_name_renamed`). The string `mac_suffix` is too long for its
array in every call (`rename_never_right`), and `gap_device_name` gets no NUL of its own, so it can
be read on into a longer earlier name (`gap_device_name_iff`).

Every write to an array is recorded with its index.
-/

namespace ThermalPrinter

open CString

/-- `MAX_BT_NAME_LEN`. -/
def MAX_BT_NAME_LEN : Nat := 32

/-- `BT_NAME_LEN_MAX`. -/
def BT_NAME_LEN_MAX : Nat := 29

/-- `ble_ext_name` without its NUL: `(BLE)`. -/
def ble_ext_name : List UInt8 := [0x28, 0x42, 0x4c, 0x45, 0x29]

/-- The arrays; `mac_suffix` is a local of `CommandSetBTName`. -/
inductive NameArray
  | edr_name | mac_suffix | gap_device_name
  deriving DecidableEq, Repr

/-- `sizeof`. -/
def NameArray.size : NameArray → Nat
  | edr_name => MAX_BT_NAME_LEN
  | mac_suffix => 6
  | gap_device_name => BT_NAME_LEN_MAX

/-- The bytes from the beginning of each array on, `gap_device_name_len`, and the writes so far. -/
structure Names where
  bytes : NameArray → List UInt8
  gap_device_name_len : Nat
  writes : List (NameArray × Nat)

/-- A digit of `%02X`. -/
def hexDigit (n : Nat) : UInt8 := if n < 10 then .ofNat (0x30 + n) else .ofNat (0x41 + (n - 10))

/-- `%02X`. -/
def hex02 (b : UInt8) : List UInt8 := [hexDigit (b.toNat / 16), hexDigit (b.toNat % 16)]

/-- `-%02X%02X%02X` of the upper bytes of the address. -/
def macSuffix (mac_addr : Vector UInt8 6) : List UInt8 :=
  0x2d :: (hex02 mac_addr[5] ++ hex02 mac_addr[4] ++ hex02 mac_addr[3])

namespace Names

/-- Bytes copied to place `i` of an array. What is written behind the array is still there when it
is read. -/
def write (a : NameArray) (i : Nat) (new : List UInt8) (s : Names) : Names :=
  { s with
    bytes := Function.update s.bytes a (overwrite (s.bytes a) i new)
    writes := s.writes ++ (List.range new.length).map fun k => (a, i + k) }

/-- `strncat`. -/
def strncat (a : NameArray) (src : List UInt8) (n : Nat) (s : Names) : Names :=
  s.write a (upToNUL (s.bytes a)).length ((upToNUL src).take n ++ [0])

/-- `bt_ble_init`; `bt_get_local_name` returns `edr_name`. -/
def bt_ble_init (s : Names) : Names :=
  let name_p := s.bytes .edr_name
  let ext_name_len := ble_ext_name.length
  let gap_device_name_len :=
    if (upToNUL name_p).length > BT_NAME_LEN_MAX - ext_name_len then BT_NAME_LEN_MAX - ext_name_len
    else (upToNUL name_p).length
  let s := s.write .gap_device_name 0 (name_p.take gap_device_name_len)
  let s := s.write .gap_device_name gap_device_name_len ble_ext_name
  { s with gap_device_name_len := gap_device_name_len + ext_name_len }

/-- The first lines of `CommandSetBTName`: the payload is copied into `edr_name`. -/
def copyPayload (payload : List UInt8) (s : Names) : Names :=
  let s := s.write .edr_name 0 (List.replicate MAX_BT_NAME_LEN 0)
  let s := (List.range (MAX_BT_NAME_LEN - 1)).foldl
    (fun s i => s.write .edr_name i [payload.getD i 0]) s
  s.write .edr_name (MAX_BT_NAME_LEN - 1) [0]

/-- `CommandSetBTName`, with the payload of the command. -/
def CommandSetBTName (payload : List UInt8) (mac_addr : Vector UInt8 6) (s : Names) : Names :=
  let s := s.copyPayload payload
  let s := s.write .mac_suffix 0 (macSuffix mac_addr ++ [0])
  let s := s.strncat .edr_name (s.bytes .mac_suffix)
    (MAX_BT_NAME_LEN - (upToNUL (s.bytes .edr_name)).length - 1)
  s.bt_ble_init

/-- The names after an event of the parser's log. -/
def handle (mac_addr : Vector UInt8 6) (s : Names) : Event → Names
  | .btName payload => s.CommandSetBTName payload mac_addr
  | _ => s

/-- The arrays at boot: `gap_device_name` is `wl80_ble_test`. -/
def init : Names where
  bytes
    | .edr_name => List.replicate MAX_BT_NAME_LEN 0
    | .mac_suffix => List.replicate 6 0
    | .gap_device_name =>
      [0x77, 0x6c, 0x38, 0x30, 0x5f, 0x62, 0x6c, 0x65, 0x5f, 0x74, 0x65, 0x73, 0x74] ++
        List.replicate 16 0
  gap_device_name_len := 0
  writes := []

/-- The name that is meant: the first 31 bytes of the payload up to their first NUL, and the end of
the address, in 31 characters. -/
def newName (payload : List UInt8) (mac_addr : Vector UInt8 6) : List UInt8 :=
  (upToNUL (payload.take 31) ++ macSuffix mac_addr).take 31

/-- The name over BLE: the name, cut to 24 characters, and `(BLE)`. -/
def gapName (payload : List UInt8) (mac_addr : Vector UInt8 6) : List UInt8 :=
  (newName payload mac_addr).take (BT_NAME_LEN_MAX - 5) ++ ble_ext_name

/-- What is asked of a renaming that leaves these names: both are read as they are meant, and no
write so far was outside its array. -/
structure Right (payload : List UInt8) (mac_addr : Vector UInt8 6) (s : Names) : Prop where
  edr_name : cstr (s.bytes .edr_name) = some (newName payload mac_addr)
  gap_device_name : cstr (s.bytes .gap_device_name) = some (gapName payload mac_addr)
  inside : ∀ a ∈ s.writes, a.2 < a.1.size

variable {s : Names} {payload : List UInt8} {mac_addr : Vector UInt8 6} {a : NameArray} {i n : Nat}

/-! ## The writes -/

@[simp] theorem bytes_write_same {new : List UInt8} :
    (s.write a i new).bytes a = overwrite (s.bytes a) i new :=
  Function.update_self ..

theorem bytes_write_ne {a' : NameArray} {new : List UInt8} (h : a' ≠ a) :
    (s.write a i new).bytes a' = s.bytes a' :=
  Function.update_of_ne h ..

/-- The loop over the payload copies it. -/
theorem bytes_foldl_write (n : Nat) (s : Names) :
    ((List.range n).foldl (fun s i => s.write .edr_name i [payload.getD i 0]) s).bytes .edr_name =
      overwrite (s.bytes .edr_name) 0 ((List.range n).map (payload.getD · 0)) := by
  rw [← foldl_overwrite]
  exact (List.foldl_hom (fun s : Names => s.bytes .edr_name) fun s i => bytes_write_same.symm).symm

/-- The bytes that the loop reads, up to the first NUL. -/
theorem upToNUL_payload (n : Nat) :
    upToNUL ((List.range n).map (payload.getD · 0)) = upToNUL (payload.take n) := by
  induction payload generalizing n with
  | nil => cases n <;> simp [upToNUL, List.range_succ_eq_map]
  | cons c payload ih =>
    cases n with
    | zero => rfl
    | succ n =>
      have hrest := ih n
      unfold upToNUL at hrest ⊢
      rw [List.range_succ_eq_map, List.map_cons, List.map_map, List.take_succ_cons,
        List.takeWhile_cons, List.takeWhile_cons, ← hrest]
      rfl

/-- The payload is copied with a NUL behind its 31 bytes. -/
theorem bytes_copyPayload (s : Names) (payload : List UInt8) :
    ∃ rest, (s.copyPayload payload).bytes .edr_name =
      (List.range 31).map (payload.getD · 0) ++ 0 :: rest := by
  refine ⟨(s.bytes .edr_name).drop 32, ?_⟩
  have hloop := overwrite_overwrite (overwrite (s.bytes .edr_name) 0 (List.replicate 32 0))
    ((List.range 31).map (payload.getD · 0)) [0] (Nat.zero_le _)
  rw [List.length_map, List.length_range, Nat.zero_add] at hloop
  simp only [copyPayload, MAX_BT_NAME_LEN, bytes_write_same, bytes_foldl_write]
  rw [hloop, overwrite_zero, overwrite_zero]
  simp

theorem upToNUL_copyPayload :
    upToNUL ((s.copyPayload payload).bytes .edr_name) = upToNUL (payload.take 31) := by
  obtain ⟨rest, heq⟩ := bytes_copyPayload s payload
  rw [heq, upToNUL_append_zero_cons, upToNUL_payload]

theorem hexDigit_ne_zero (hn : n < 16) : hexDigit n ≠ 0 := by
  interval_cases n <;> decide

theorem zero_notMem_macSuffix : 0 ∉ macSuffix mac_addr := by
  have hdigits (b : UInt8) : 0 ∉ hex02 b := by
    have hhigh := hexDigit_ne_zero (n := b.toNat / 16) (by have := b.toNat_lt; omega)
    have hlow := hexDigit_ne_zero (n := b.toNat % 16) (Nat.mod_lt _ (by decide))
    simp [hex02, hhigh.symm, hlow.symm]
  simp [macSuffix, hdigits]

theorem zero_notMem_newName : 0 ∉ newName payload mac_addr := by
  intro h
  rcases List.mem_append.1 (List.mem_of_mem_take h) with hname | hsuffix
  · exact zero_notMem_upToNUL hname
  · exact zero_notMem_macSuffix hsuffix

/-- **The name is composed**: what `strncat` leaves in `edr_name`. -/
theorem bytes_strncat (s : Names) (payload : List UInt8) (mac_addr : Vector UInt8 6) : ∃ rest,
    let s := (s.copyPayload payload).write .mac_suffix 0 (macSuffix mac_addr ++ [0])
    (s.strncat .edr_name (s.bytes .mac_suffix)
      (MAX_BT_NAME_LEN - (upToNUL (s.bytes .edr_name)).length - 1)).bytes .edr_name =
        newName payload mac_addr ++ 0 :: rest := by
  dsimp only
  have hname : ((s.copyPayload payload).write .mac_suffix 0 (macSuffix mac_addr ++ [0])).bytes
      .edr_name = (s.copyPayload payload).bytes .edr_name := bytes_write_ne (by decide)
  have hsuffix : upToNUL (overwrite ((s.copyPayload payload).bytes .mac_suffix) 0
      (macSuffix mac_addr ++ [0])) = macSuffix mac_addr := by
    rw [overwrite_zero, List.append_assoc]
    exact upToNUL_append_zero zero_notMem_macSuffix
  have hlen : (upToNUL (payload.take 31)).length ≤ 31 :=
    length_upToNUL_le.trans (List.length_take_le _ _)
  have hroom : 32 - (upToNUL (payload.take 31)).length - 1 =
      31 - (upToNUL (payload.take 31)).length := by omega
  have hnew : newName payload mac_addr = upToNUL (payload.take 31) ++
      (macSuffix mac_addr).take (31 - (upToNUL (payload.take 31)).length) := by
    rw [newName, List.take_append, List.take_of_length_le hlen]
  have htake := take_length_upToNUL ((s.copyPayload payload).bytes .edr_name)
  simp only [strncat, bytes_write_same, hname, hsuffix]
  rw [upToNUL_copyPayload] at htake
  rw [upToNUL_copyPayload, MAX_BT_NAME_LEN, hroom, overwrite, htake, hnew, ← List.append_assoc,
    List.append_assoc _ [0]]
  exact ⟨_, rfl⟩

/-- `bt_ble_init` leaves `edr_name` alone and copies the name, cut, with `(BLE)` behind it. -/
theorem bytes_bt_ble_init {name rest : List UInt8} (hname : s.bytes .edr_name = name ++ 0 :: rest)
    (hNUL : 0 ∉ name) :
    s.bt_ble_init.bytes .edr_name = s.bytes .edr_name ∧
      s.bt_ble_init.bytes .gap_device_name =
        overwrite (s.bytes .gap_device_name) 0 (name.take 24 ++ ble_ext_name) := by
  have hread : upToNUL (s.bytes .edr_name) = name := by rw [hname, upToNUL_append_zero hNUL]
  have hcut : (if name.length > BT_NAME_LEN_MAX - ble_ext_name.length then
      BT_NAME_LEN_MAX - ble_ext_name.length else name.length) = (name.take 24).length := by
    rw [List.length_take]
    change (if name.length > 24 then 24 else name.length) = _
    split <;> omega
  have htake : (s.bytes .edr_name).take (name.take 24).length = name.take 24 := by
    rw [hname, List.take_append_of_le_length (List.length_take_le' _ _), List.length_take]
    exact List.take_eq_take_min.symm
  refine ⟨?_, ?_⟩
  · simp only [bt_ble_init]
    rw [bytes_write_ne (by decide), bytes_write_ne (by decide)]
  · simp only [bt_ble_init, hread, hcut, bytes_write_same, htake]
    have hcopies := overwrite_overwrite (s.bytes .gap_device_name) (name.take 24) ble_ext_name
      (Nat.zero_le _)
    rwa [Nat.zero_add] at hcopies

/-- **A renaming**: the name in `edr_name`, and `gap_device_name` with the new name copied into
it. -/
theorem bytes_CommandSetBTName (s : Names) (payload : List UInt8) (mac_addr : Vector UInt8 6) :
    cstr ((s.CommandSetBTName payload mac_addr).bytes .edr_name) =
        some (newName payload mac_addr) ∧
      (s.CommandSetBTName payload mac_addr).bytes .gap_device_name =
        overwrite (s.bytes .gap_device_name) 0 (gapName payload mac_addr) := by
  obtain ⟨rest, hname⟩ := bytes_strncat s payload mac_addr
  obtain ⟨hedr, hgap⟩ := bytes_bt_ble_init hname zero_notMem_newName
  refine ⟨?_, hgap.trans ?_⟩
  · rw [CommandSetBTName, hedr, hname, cstr_append_zero zero_notMem_newName]
  · have hframe (s : Names) (n : Nat) :
        ((List.range n).foldl (fun s i => s.write .edr_name i [payload.getD i 0]) s).bytes
          .gap_device_name = s.bytes .gap_device_name :=
      List.foldlRecOn (motive := fun t : Names => t.bytes .gap_device_name = _) _ _ rfl
        fun t ht i _ => (bytes_write_ne (by decide)).trans ht
    rw [strncat, bytes_write_ne (by decide), bytes_write_ne (by decide), copyPayload,
      bytes_write_ne (by decide), hframe, bytes_write_ne (by decide)]
    rfl

theorem zero_notMem_gapName : 0 ∉ gapName payload mac_addr := by
  rw [gapName, List.mem_append]
  exact fun h => h.elim (fun hname => zero_notMem_newName (List.mem_of_mem_take hname)) (by decide)

theorem length_gapName_le : (gapName payload mac_addr).length ≤ BT_NAME_LEN_MAX := by
  have hcut := List.length_take_le 24 (newName payload mac_addr)
  rw [gapName, List.length_append]
  exact Nat.add_le_add_right hcut 5

/-! ## Sequences of renamings -/

/-- The names after a sequence of renamings. -/
def renamings (payloads : List (List UInt8)) (mac_addr : Vector UInt8 6) (s : Names) : Names :=
  payloads.foldl (fun s payload => s.CommandSetBTName payload mac_addr) s

theorem renamings_concat (payloads : List (List UInt8)) (s : Names) :
    s.renamings (payloads ++ [payload]) mac_addr =
      (s.renamings payloads mac_addr).CommandSetBTName payload mac_addr :=
  List.foldl_concat ..

/-- **`edr_name` is right** after every sequence of renamings. -/
theorem edr_name_renamed (s : Names) (payloads : List (List UInt8)) (payload : List UInt8)
    (mac_addr : Vector UInt8 6) :
    cstr ((s.renamings (payloads ++ [payload]) mac_addr).bytes .edr_name) =
      some (newName payload mac_addr) := by
  rw [renamings_concat]
  exact (bytes_CommandSetBTName _ payload mac_addr).1

/-- After renamings `gap_device_name` holds a string as long as the longest name it had. -/
theorem filled_renamings (payloads : List (List UInt8)) (mac_addr : Vector UInt8 6) :
    ∃ str, Filled BT_NAME_LEN_MAX str ((init.renamings payloads mac_addr).bytes .gap_device_name) ∧
      ∀ n, str.length ≤ n ↔ 13 ≤ n ∧ ∀ p ∈ payloads, (gapName p mac_addr).length ≤ n := by
  induction payloads using List.reverseRecOn with
  | nil =>
    refine ⟨[0x77, 0x6c, 0x38, 0x30, 0x5f, 0x62, 0x6c, 0x65, 0x5f, 0x74, 0x65, 0x73, 0x74],
      ⟨rfl, by decide, by decide⟩, fun n => ?_⟩
    exact (and_iff_left (List.forall_mem_nil _)).symm
  | append_singleton payloads payload ih =>
    obtain ⟨str, hfilled, hlongest⟩ := ih
    rw [renamings_concat, (bytes_CommandSetBTName _ payload mac_addr).2]
    refine ⟨_, hfilled.overwrite zero_notMem_gapName length_gapName_le, fun n => ?_⟩
    have hmax : (gapName payload mac_addr ++ str.drop (gapName payload mac_addr).length).length ≤ n
        ↔ str.length ≤ n ∧ (gapName payload mac_addr).length ≤ n := by
      rw [List.length_append, List.length_drop]
      omega
    rw [hmax, hlongest n, and_assoc, List.forall_mem_append, List.forall_mem_singleton]

/-- **`gap_device_name` is right** after a sequence of renamings exactly if the last name, cut, is
at least as long as each one before, the one at boot among them, and leaves room for a NUL. -/
theorem gap_device_name_iff (payloads : List (List UInt8)) (payload : List UInt8)
    (mac_addr : Vector UInt8 6) :
    cstr ((init.renamings (payloads ++ [payload]) mac_addr).bytes .gap_device_name) =
        some (gapName payload mac_addr) ↔
      (13 ≤ (gapName payload mac_addr).length ∧
          ∀ p ∈ payloads, (gapName p mac_addr).length ≤ (gapName payload mac_addr).length) ∧
        (gapName payload mac_addr).length < BT_NAME_LEN_MAX := by
  obtain ⟨str, hfilled, hlongest⟩ := filled_renamings payloads mac_addr
  rw [renamings_concat, (bytes_CommandSetBTName _ payload mac_addr).2,
    hfilled.cstr_overwrite_iff zero_notMem_gapName length_gapName_le, hlongest]

/-! ## Where is written -/

/-- A write so far that was outside its array. -/
def WroteOutside (s : Names) (w : NameArray × Nat) : Prop := w ∈ s.writes ∧ w.1.size ≤ w.2

variable {w : NameArray × Nat} {new : List UInt8}

theorem wroteOutside_write :
    (s.write a i new).WroteOutside w ↔
      s.WroteOutside w ∨ ∃ k < new.length, w = (a, i + k) ∧ a.size ≤ i + k := by
  simp only [WroteOutside, write, List.mem_append, List.mem_map, List.mem_range, or_and_right]
  refine or_congr_right ⟨?_, ?_⟩
  · rintro ⟨⟨k, hk, rfl⟩, hout⟩
    exact ⟨k, hk, rfl, hout⟩
  · rintro ⟨k, hk, rfl, hout⟩
    exact ⟨⟨k, hk, rfl⟩, hout⟩

/-- A write that the array has room for. -/
theorem wroteOutside_write_of_le (h : i + new.length ≤ a.size) :
    (s.write a i new).WroteOutside w ↔ s.WroteOutside w := by
  rw [wroteOutside_write, or_iff_left]
  rintro ⟨k, hk, -, hout⟩
  omega

theorem wroteOutside_copyPayload : (s.copyPayload payload).WroteOutside w ↔ s.WroteOutside w := by
  have hloop (s : Names) :
      ((List.range 31).foldl (fun s i => s.write .edr_name i [payload.getD i 0]) s).WroteOutside w ↔
        s.WroteOutside w :=
    List.foldlRecOn (motive := fun t : Names => t.WroteOutside w ↔ s.WroteOutside w) _ _ Iff.rfl
      fun t ht i hi =>
        (wroteOutside_write_of_le (List.mem_range.1 hi |>.trans (by decide))).trans ht
  rw [copyPayload, wroteOutside_write_of_le (by decide)]
  exact (hloop _).trans (wroteOutside_write_of_le (by decide))

theorem wroteOutside_bt_ble_init : s.bt_ble_init.WroteOutside w ↔ s.WroteOutside w := by
  have hcut : (if (upToNUL (s.bytes .edr_name)).length > BT_NAME_LEN_MAX - ble_ext_name.length then
      BT_NAME_LEN_MAX - ble_ext_name.length else (upToNUL (s.bytes .edr_name)).length) ≤ 24 := by
    split
    · decide
    · exact Nat.le_of_not_lt ‹_›
  unfold bt_ble_init
  refine (wroteOutside_write_of_le (Nat.add_le_add_right hcut 5)).trans
    (wroteOutside_write_of_le ?_)
  rw [Nat.zero_add]
  exact (List.length_take_le _ _).trans (hcut.trans (by decide))

/-- **Every renaming writes two bytes behind `mac_suffix`**, and no other byte outside an array. -/
theorem wroteOutside_CommandSetBTName :
    (s.CommandSetBTName payload mac_addr).WroteOutside w ↔
      s.WroteOutside w ∨ w = (.mac_suffix, 6) ∨ w = (.mac_suffix, 7) := by
  have hsuffix (s : Names) :
      (s.write .mac_suffix 0 (macSuffix mac_addr ++ [0])).WroteOutside w ↔
        s.WroteOutside w ∨ w = (.mac_suffix, 6) ∨ w = (.mac_suffix, 7) := by
    rw [wroteOutside_write]
    refine or_congr_right ⟨?_, ?_⟩
    · rintro ⟨k, hk, rfl, hout⟩
      have hk : k < 8 := hk
      have hout : 6 ≤ 0 + k := hout
      rcases (by omega : k = 6 ∨ k = 7) with rfl | rfl
      · exact .inl rfl
      · exact .inr rfl
    · rintro (rfl | rfl)
      · exact ⟨6, show 6 < 8 by decide, rfl, by decide⟩
      · exact ⟨7, show 7 < 8 by decide, rfl, by decide⟩
  have hname : (upToNUL (((s.copyPayload payload).write .mac_suffix 0
      (macSuffix mac_addr ++ [0])).bytes .edr_name)).length ≤ 31 := by
    rw [bytes_write_ne (by decide), upToNUL_copyPayload]
    exact length_upToNUL_le.trans (List.length_take_le _ _)
  unfold CommandSetBTName
  rw [wroteOutside_bt_ble_init, strncat, wroteOutside_write_of_le, hsuffix,
    wroteOutside_copyPayload]
  have hnew := List.length_take_le (MAX_BT_NAME_LEN - (upToNUL (((s.copyPayload payload).write
    .mac_suffix 0 (macSuffix mac_addr ++ [0])).bytes .edr_name)).length - 1)
    (upToNUL (((s.copyPayload payload).write .mac_suffix 0 (macSuffix mac_addr ++ [0])).bytes
      .mac_suffix))
  rw [List.length_append]
  change _ ≤ 32
  change _ ≤ 32 - _ - 1 at hnew
  rw [List.length_singleton]
  omega

/-- **No renaming is right**: whatever the payload and the address, and after any renamings before,
it writes behind `mac_suffix`. -/
theorem rename_never_right (s : Names) (payloads : List (List UInt8)) (payload : List UInt8)
    (mac_addr : Vector UInt8 6) :
    ¬ (s.renamings (payloads ++ [payload]) mac_addr).Right payload mac_addr := by
  intro hright
  rw [renamings_concat] at hright
  obtain ⟨hmem, hout⟩ : WroteOutside _ (.mac_suffix, 6) :=
    wroteOutside_CommandSetBTName.2 (.inr (.inl rfl))
  exact absurd (hright.inside _ hmem) (Nat.not_lt.2 hout)

/-- Renamed to `THT`, and from a name of 24 characters back to it. -/
theorem renamed_THT_not_right :
    ¬ (init.renamings [[0x54, 0x48, 0x54]] #v[0, 0, 0, 0, 0, 0]).Right [0x54, 0x48, 0x54]
        #v[0, 0, 0, 0, 0, 0] ∧
      cstr ((init.renamings [List.replicate 16 0x41, [0x54, 0x48, 0x54]]
        #v[0, 0, 0, 0, 0, 0]).bytes .gap_device_name) ≠
          some (gapName [0x54, 0x48, 0x54] #v[0, 0, 0, 0, 0, 0]) := by
  refine ⟨fun hright => ?_, fun hread => ?_⟩
  · exact absurd (hright.inside (.mac_suffix, 6) (by decide)) (by decide)
  · have hlonger := ((gap_device_name_iff [List.replicate 16 0x41] _ _).1 hread).1.2 _ (.head _)
    exact absurd hlonger (by decide)

/-! ## The command of the host -/

/-- The payload that the parser hands on has the 32 bytes behind the head of the command. -/
theorem CommandSetBTName_payload (p : Printer)
    (hroom : p.command.ReadPos + 32 ≤ p.command.TotalLength)
    (hlen : p.command.TotalLength ≤ p.command.Buffer.length) :
    p.CommandSetBTName.log = p.log ++ [.btName (p.bytes 32)] ∧ (p.bytes 32).length = 32 := by
  refine ⟨by rw [Printer.CommandSetBTName, if_pos hroom]; rfl, ?_⟩
  rw [Printer.bytes, Command.unread, List.length_take, List.length_drop]
  omega

/-- The payloads of the renamings in a log of the parser. -/
def payloads (log : List Event) : List (List UInt8) :=
  log.filterMap fun
    | .btName payload => some payload
    | _ => none

/-- What the commands of the host do to the names is a sequence of renamings. -/
theorem foldl_handle (log : List Event) (s : Names) :
    log.foldl (handle mac_addr) s = s.renamings (payloads log) mac_addr := by
  induction log generalizing s with
  | nil => rfl
  | cons e log ih =>
    rw [List.foldl_cons, ih]
    cases e <;> rfl

end Names

end ThermalPrinter
