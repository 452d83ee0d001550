import ThermalPrinter.Lib.CString
import ThermalPrinter.Parser.Bounds
import ThermalPrinter.Parser.Packet

/-!
# WiFi provisioning

The host sends `NVS-WiFi` and two fields of 32 bytes, the SSID and the password, padded with NULs.
`CommandNVSWiFi` copies the fields into the record `Nvs`, and `SaveWifiInfo` copies the two C
strings out of it. That hands on what was sent, with two exceptions. A packet that ends right behind
the head loses the command, since the scan wants a ninth byte to find it and eight to skip the
first. And an SSID of 32 bytes leaves its field without a NUL, so that it is read on into the
password, which follows it in `Nvs` (`provisioned_iff`).
-/

namespace ThermalPrinter

open Lookahead CString

/-! ## The record -/

/-- The fields of the record `NVS` from the SSID on, as far as a string can be read. -/
structure NVS where
  SSID : List UInt8
  SSIDPassword : List UInt8
  ManufactureName : List UInt8
  ModelName : List UInt8

namespace NVS

/-- `Nvs` at boot: all that is not initialised is zero. -/
def init : NVS :=
  ⟨List.replicate 32 0, List.replicate 32 0, List.replicate 32 0, List.replicate 32 0⟩

/-- The copies of `CommandNVSWiFi` into the record. -/
def CommandNVSWiFi (SSID SSIDPassword : List UInt8) (s : NVS) : NVS :=
  { s with SSID := SSID, SSIDPassword := SSIDPassword }

/-- The record after an event of the parser's log. -/
def handle (s : NVS) : Event → NVS
  | .nvs SSID SSIDPassword => s.CommandNVSWiFi SSID SSIDPassword
  | _ => s

/-- The record after a log. -/
def after (log : List Event) : NVS := log.foldl handle init

/-- `SaveWifiInfo(Nvs.SSID,Nvs.SSIDPassword)`: the strings that `strcpy` copies for
`wifi_store_mode_info`. Without a NUL in its field a string is read on into the next one. -/
def SaveWifiInfo (s : NVS) : Option (List UInt8) × Option (List UInt8) :=
  (cstr (s.SSID ++ (s.SSIDPassword ++ (s.ManufactureName ++ s.ModelName))),
    cstr (s.SSIDPassword ++ (s.ManufactureName ++ s.ModelName)))

/-- Nothing writes to `ManufactureName`. -/
theorem ManufactureName_after (log : List Event) :
    (after log).ManufactureName = List.replicate 32 0 := by
  refine List.foldlRecOn (motive := fun s : NVS => s.ManufactureName = _) _ _ rfl ?_
  intro s hs e _
  cases e <;> exact hs

theorem after_concat (log : List Event) (a b : List UInt8) :
    after (log ++ [.nvs a b]) = (after log).CommandNVSWiFi a b := List.foldl_concat ..

end NVS

/-- A field of 32 bytes: a text, padded with NULs. -/
def field (text : List UInt8) : List UInt8 := text ++ List.replicate (32 - text.length) 0

theorem length_field {text : List UInt8} (h : text.length ≤ 32) : (field text).length = 32 := by
  rw [field, List.length_append, List.length_replicate]
  omega

/-- The string of a field with other bytes behind it. -/
theorem cstr_field {text rest : List UInt8} (hle : text.length ≤ 32) (hNUL : 0 ∉ text) :
    cstr (field text ++ rest) =
      if text.length < 32 then some text else (cstr rest).map (text ++ ·) := by
  rw [field, List.append_assoc]
  split
  next hlt =>
    obtain ⟨k, hk⟩ : ∃ k, 32 - text.length = k + 1 := Nat.exists_eq_succ_of_ne_zero (by omega)
    rw [hk, List.replicate_succ, List.cons_append, cstr_append_zero hNUL]
  next hge =>
    have hfull : 32 - text.length = 0 := by omega
    rw [hfull, List.replicate_zero, List.nil_append, cstr_append hNUL]

/-- **What is handed on of two fields**: the two texts exactly if the SSID leaves room for a NUL or
there is no password. -/
theorem SaveWifiInfo_iff (log : List Event) {SSID password : List UInt8} (hSSID : SSID.length ≤ 32)
    (hpassword : password.length ≤ 32) (hNUL : 0 ∉ SSID) (hNUL' : 0 ∉ password) :
    (NVS.after (log ++ [.nvs (field SSID) (field password)])).SaveWifiInfo =
        (some SSID, some password) ↔ SSID.length < 32 ∨ password = [] := by
  have hname := NVS.ManufactureName_after log
  have hread : cstr (field password ++ ((NVS.after log).ManufactureName ++
      (NVS.after log).ModelName)) = some password := by
    rw [hname, cstr_field hpassword hNUL', List.replicate_succ, List.cons_append, cstr_zero_cons,
      Option.map_some, List.append_nil, ite_self]
  rw [NVS.after_concat, NVS.SaveWifiInfo]
  simp only [NVS.CommandNVSWiFi, hread, Prod.mk.injEq, and_true]
  rw [cstr_field hSSID hNUL, hread, Option.map_some]
  split
  next hlt => exact iff_of_true rfl (.inl hlt)
  next hfull =>
    rw [Option.some.injEq, List.append_right_eq_self]
    exact (or_iff_right hfull).symm

/-! ## The command in the reader -/

namespace Decoder

variable {d d' D : Decoder} {u u' v w : List UInt8} {es : List Event}

theorem not_scanning_enter : ¬ (d.enter .commandNVSWiFi).Scanning :=
  fun h => h.1 (show CMDStatus.commandNVSWiFi ∈ _ by decide)

/-- In a packet that brings a byte behind it, the head is found. -/
theorem react_nvsWiFi (h : d.Scanning) (hv : v ≠ []) :
    d.react (nvsWiFi ++ v) = some (d.enter .commandNVSWiFi, v, []) := by
  have hfound : findHead (nvsWiFi ++ v) = some (.commandNVSWiFi, nvsWiFi) := by
    refine findHead_iff.2 ⟨by decide, ?_, List.prefix_append ..⟩
    rw [List.length_append]
    exact Nat.lt_add_of_pos_right (List.length_pos_iff.2 hv)
  rw [react_scanning h, scan, hfound]
  rfl

/-- No head is found in a part of `NVS-WiFi`, the whole included. -/
theorem findHead_of_prefix (hu : u <+: nvsWiFi) : findHead u = none := by
  by_contra hne
  obtain ⟨h, hh⟩ := Option.ne_none_iff_exists'.1 hne
  obtain ⟨hm, hlt, hp⟩ := findHead_iff.1 hh
  have hsame : h = (.commandNVSWiFi, nvsWiFi) :=
    head_eq_of_begins hm (by decide) (hp.trans hu)
  rw [hsame] at hlt
  exact absurd hlt (Nat.not_lt.2 hu.length_le)

/-- Of the head alone a byte is skipped, and the scan waits. -/
theorem steps_head_alone (h : d.Scanning) :
    parser.Steps d nvsWiFi [] d nvsWiFi.tail ∧ parser.Blocked d nvsWiFi.tail := by
  have hskip : d.react nvsWiFi = some (d, nvsWiFi.tail, []) := by
    rw [react_scanning h, scan, findHead_of_prefix List.prefix_rfl]
    rfl
  refine ⟨.single hskip, ?_⟩
  rw [parser_blocked, react_scanning h]
  rfl

/-- Less than the head leaves the scan waiting. -/
theorem blocked_of_prefix (h : d.Scanning) (hu : u <+: nvsWiFi) (hlen : u.length < 8) :
    parser.Blocked d u := by
  rw [parser_blocked, react_scanning h, scan, findHead_of_prefix hu]
  exact if_neg (Nat.not_le.2 hlen)

/-- The two fields, all of them there, are read. -/
theorem react_fields (hw : w.length = 64) : (d.enter .commandNVSWiFi).react w =
    some ((d.enter .commandNVSWiFi).idle, [], [.nvs (w.take 32) (w.drop 32)]) := by
  have hall : w.take 64 = w := List.take_of_length_le (Nat.le_of_eq hw)
  have hnone : w.drop 64 = [] := List.drop_eq_nil_of_le (Nat.le_of_eq hw)
  have hreact : (d.enter .commandNVSWiFi).react w = arg 64 64
      (fun a => ((d.enter .commandNVSWiFi).idle, [.nvs (a.take 32) (a.drop 32)])) w := rfl
  rw [hreact, arg_eq_some]
  exact ⟨Nat.le_of_eq hw.symm, rfl, hnone, by rw [hall]⟩

/-- What a reaction leaves, if the reader was blocked before the last bytes arrived: it has read
what was there, up to the look-ahead of the scan. -/
theorem react_of_blocked (hb : parser.Blocked d u) (h : d.react (u ++ v) = some (d', w, es)) :
    w.length < v.length + 8 := by
  obtain ⟨n, hn, -, rfl⟩ := react_drop h
  rw [List.length_drop, List.length_append]
  by_cases hs : d.DecodeStatus = .CommandZipData
  · by_cases hu : u = []
    · subst hu
      simp only [List.length_nil]
      omega
    · have hat : d.AtBlock u := ⟨hs, .inr hu⟩
      rw [parser_blocked.1 (hat.append (v := v) hb).2] at h
      cases h
  · have hlt := blocked_lt hs hb
    have hneed : d.need ≤ d.pending + 8 := by
      unfold need pending
      split <;> simp_all [MAxHeadLength]
    omega

end Decoder

/-! ## What the host sends -/

/-- A provisioning: the SSID and the password, the printer when the packet with the end of what is
sent before the command arrives, and the packets from then on. The bytes before the command leave
the parser idle: when it has read them, it stands at the command and looks for a head. So no
compressed block ends among them, whose content would still have to be read. Whatever was sent in
earlier packets, such blocks included, is in the state of the printer. -/
structure Provisioning where
  s : Printer
  tidy : s.decoder.Tidy
  SSID : List UInt8
  SSID_le : SSID.length ≤ 32
  SSID_NUL : 0 ∉ SSID
  password : List UInt8
  password_le : password.length ≤ 32
  password_NUL : 0 ∉ password
  before : List UInt8
  first : List UInt8
  packets : List (List UInt8)
  begun : List UInt8
  first_eq : s.remainder ++ first = before ++ begun
  packets_eq : begun ++ packets.flatten = nvsWiFi ++ (field SSID ++ field password)
  events : List Event
  decoder : Decoder
  steps : parser.Steps s.decoder (before ++ (nvsWiFi ++ (field SSID ++ field password))) events
    decoder (nvsWiFi ++ (field SSID ++ field password))
  scanning : decoder.Scanning

namespace Provisioning

variable (x : Provisioning)

/-- The two fields. -/
def fields : List UInt8 := field x.SSID ++ field x.password

/-- The command: its head and the two fields. -/
def command : List UInt8 := nvsWiFi ++ x.fields

/-- A packet ends right behind the head: what the packets behind it bring is the two fields. -/
def CutBehindHead : Prop :=
  ∃ l r, x.first :: x.packets = l ++ r ∧ l ≠ [] ∧ r.flatten = x.fields

/-- **What was sent is stored**: whatever zlib does and whenever rows are printed, if no packet is
refused, then the calls return, exactly one `CommandNVSWiFi` runs after what was before, and the
strings that are handed on are the SSID and the password. -/
def Stored : Prop :=
  ∀ (env : Env) (qs : List (Nat × List UInt8)), qs.map Prod.snd = x.first :: x.packets →
    (∀ fuel, Printer.feedAll env fuel qs x.s ≠ .ok none) →
    ∃ s' n a b, (∀ fuel, n ≤ fuel → Printer.feedAll env fuel qs x.s = .ok (some s')) ∧
      s'.log = x.s.log ++ x.events ++ [.nvs a b] ∧
      (NVS.after s'.log).SaveWifiInfo = (some x.SSID, some x.password)

variable {x} {d d' : Decoder} {u u' v w : List UInt8} {es : List Event}

theorem length_fields : x.fields.length = 64 := by
  rw [fields, List.length_append, length_field x.SSID_le, length_field x.password_le]

theorem length_command : x.command.length = 72 := by
  rw [command, List.length_append, length_fields]
  rfl

theorem fields_ne_nil : x.fields ≠ [] :=
  fun h => absurd (length_fields (x := x)) (by rw [h]; decide)

/-- The reader comes to the command. -/
def Before (x : Provisioning) (d : Decoder) (w : List UInt8) : Prop :=
  ∃ es, parser.Steps d w es x.decoder x.command

/-- The reader is on the way that leads through the command: before it, at its fields, or behind
it. -/
def OnWay (x : Provisioning) (d : Decoder) (w : List UInt8) : Prop :=
  x.Before d w ∨ d = x.decoder.enter .commandNVSWiFi ∧ w = x.fields ∨
    d = (x.decoder.enter .commandNVSWiFi).idle ∧ w = []

/-- Before the command the reader stands at it, or reacts and is still before it. -/
theorem Before.cases (h : x.Before d w) :
    d = x.decoder ∧ w = x.command ∨
      ∃ d' w' es, d.react w = some (d', w', es) ∧ x.Before d' w' := by
  obtain ⟨es, hsteps⟩ := h
  cases hsteps with
  | refl => exact .inl ⟨rfl, rfl⟩
  | head h hrest => exact .inr ⟨_, _, _, h, _, hrest⟩

/-- Before the command at least its bytes are unread. -/
theorem Before.length_le (h : x.Before d w) : 72 ≤ w.length := by
  obtain ⟨es, hsteps⟩ := h
  rw [← length_command (x := x)]
  exact (Decoder.steps_suffix hsteps).length_le

/-- The head with no more than the command behind it is that of the command: another one would take
bytes of the command. -/
theorem Before.at_head (h : x.Before d (nvsWiFi ++ v)) (hscan : d.Scanning) (hv : v.length ≤ 72) :
    d = x.decoder ∧ v = x.fields := by
  have hlen : (nvsWiFi ++ v).length = 8 + v.length := List.length_append
  have hne : v ≠ [] := by
    rintro rfl
    have := h.length_le
    simp [nvsWiFi] at this
  rcases h.cases with ⟨hd, heq⟩ | ⟨d', w', es, hreact, hbefore⟩
  · exact ⟨hd, List.append_cancel_left heq⟩
  · rw [Decoder.react_nvsWiFi hscan hne] at hreact
    obtain ⟨rfl, rfl, -⟩ : _ ∧ _ ∧ _ := by simpa using hreact
    rcases hbefore.cases with ⟨hd, -⟩ | ⟨d'', w'', es', hreact', hbefore'⟩
    · exact absurd (hd ▸ x.scanning) Decoder.not_scanning_enter
    · obtain ⟨n, hn, -, rfl⟩ := Decoder.react_drop hreact'
      have hn : 64 ≤ n := hn
      have := hbefore'.length_le
      rw [List.length_drop] at this
      omega

/-! ## Without the cut -/

/-- A reaction keeps the reader on the way. -/
theorem OnWay.react (h : x.OnWay d w) (hreact : d.react w = some (d', u', es)) :
    x.OnWay d' u' := by
  rcases h with hbefore | ⟨rfl, rfl⟩ | ⟨rfl, rfl⟩
  · rcases hbefore.cases with ⟨rfl, rfl⟩ | ⟨d'', w'', es', hreact', hbefore'⟩
    · rw [command, Decoder.react_nvsWiFi x.scanning fields_ne_nil] at hreact
      cases hreact
      exact .inr (.inl ⟨rfl, rfl⟩)
    · rw [hreact'] at hreact
      cases hreact
      exact .inl hbefore'
  · rw [Decoder.react_fields length_fields] at hreact
    cases hreact
    exact .inr (.inr ⟨rfl, rfl⟩)
  · cases hreact

/-- The reader is not blocked at a block on the way. -/
theorem OnWay.not_atBlock (h : x.OnWay d w) (hb : parser.Blocked d w) : ¬ d.AtBlock w := by
  intro hat
  rcases h with hbefore | ⟨rfl, -⟩ | ⟨rfl, -⟩
  · rcases hbefore.cases with ⟨rfl, -⟩ | ⟨d', w', es, hreact, -⟩
    · exact x.scanning.2 hat.1
    · rw [parser_blocked.1 hb] at hreact
      cases hreact
  · cases hat.1
  · cases hat.1

/-- Nor is it before the last bytes have arrived. -/
theorem OnWay.not_atBlock_append (h : x.OnWay d (u ++ v)) (hb : parser.Blocked d u) :
    ¬ d.AtBlock u := by
  intro hat
  obtain ⟨hat', hb'⟩ := hat.append (v := v) hb
  exact h.not_atBlock hb' hat'

/-- With other bytes to come than just the fields, a run is what it is with them. -/
theorem OnWay.steps (hv : v.length ≤ 72) (hcut : v ≠ x.fields) (h : x.OnWay d (u ++ v))
    (hsteps : parser.Steps d u es d' u') :
    parser.Steps d (u ++ v) es d' (u' ++ v) ∧ x.OnWay d' (u' ++ v) := by
  have hreact (d : Decoder) (u : List UInt8) (d' : Decoder) (u' : List UInt8) (es : List Event)
      (h : x.OnWay d (u ++ v)) (hreact : parser.react d u = some (d', u', es)) :
      False ∨ parser.react d (u ++ v) = some (d', u' ++ v, es) ∧ x.OnWay d' (u' ++ v) := by
    have hsame : d.react (u ++ v) = some (d', u' ++ v, es) := by
      refine Decoder.react_append (fun hscan hu => ?_) hreact
      subst hu
      rcases h with hbefore | ⟨rfl, -⟩ | ⟨-, hnil⟩
      · exact absurd (hbefore.at_head hscan hv).2 hcut
      · exact absurd hscan Decoder.not_scanning_enter
      · cases hnil
    exact .inr ⟨hsame, h.react hsame⟩
  rcases hsteps.append_until hreact h with hall | ⟨_, _, _, _, -, hstop, -⟩
  · exact hall
  · exact hstop.elim

/-- No packet ends right behind the head, and what is still to come after a packet is at most the
command. -/
def Uncut (x : Provisioning) (ps : List (List UInt8)) : Prop :=
  ∀ l r, ps = l ++ r → l ≠ [] → r.flatten.length ≤ 72 ∧ r.flatten ≠ x.fields

theorem Uncut.tail {p : List UInt8} {ps : List (List UInt8)} (h : x.Uncut (p :: ps)) :
    (ps.flatten.length ≤ 72 ∧ ps.flatten ≠ x.fields) ∧ x.Uncut ps :=
  ⟨h [p] ps rfl (by simp), fun l r heq _ => h (p :: l) r (by rw [heq]; rfl) (by simp)⟩

/-- What the packets behind the first one bring is part of the command. -/
theorem length_packets_le {l r : List (List UInt8)} (h : x.first :: x.packets = l ++ r)
    (hl : l ≠ []) : r.flatten.length ≤ 72 := by
  obtain ⟨p, l, rfl⟩ := List.exists_cons_of_ne_nil hl
  rw [List.cons_append] at h
  obtain ⟨-, hpackets⟩ := List.cons.inj h
  have hlen := congrArg List.length x.packets_eq
  have hall : (nvsWiFi ++ (field x.SSID ++ field x.password)).length = 72 := length_command
  rw [hall, hpackets, List.flatten_append, List.length_append, List.length_append] at hlen
  omega

/-- No packet ends right behind the head if the first one brings a byte of the fields. -/
theorem not_cut_of_lt (h : x.packets.flatten.length < 64) : ¬ x.CutBehindHead := by
  rintro ⟨l, r, heq, hl, hr⟩
  obtain ⟨p, l, rfl⟩ := List.exists_cons_of_ne_nil hl
  rw [List.cons_append] at heq
  obtain ⟨-, hpackets⟩ := List.cons.inj heq
  rw [hpackets, List.flatten_append, List.length_append, hr, length_fields] at h
  omega

theorem uncut (h : ¬ x.CutBehindHead) : x.Uncut (x.first :: x.packets) :=
  fun l r heq hl => ⟨length_packets_le heq hl, fun hr => h ⟨l, r, heq, hl, hr⟩⟩

/-- The packets bring what was sent. -/
theorem stream_eq : x.s.remainder ++ (x.first :: x.packets).flatten = x.before ++ x.command := by
  rw [List.flatten_cons, ← List.append_assoc, x.first_eq, List.append_assoc, x.packets_eq]
  rfl

theorem before_stream : x.Before x.s.decoder (x.before ++ x.command) := ⟨_, x.steps⟩

/-- The reader reads the whole stream with the events before the command and the command. -/
theorem steps_stream : parser.Steps x.s.decoder (x.before ++ x.command)
    (x.events ++ [.nvs (field x.SSID) (field x.password)])
    (x.decoder.enter .commandNVSWiFi).idle [] := by
  have hhead := Decoder.react_nvsWiFi x.scanning (fields_ne_nil (x := x))
  have hfields := Decoder.react_fields (d := x.decoder) (length_fields (x := x))
  have htake : x.fields.take 32 = field x.SSID := List.take_left' (length_field x.SSID_le)
  have hdrop : x.fields.drop 32 = field x.password := List.drop_left' (length_field x.SSID_le)
  rw [htake, hdrop] at hfields
  have hread : parser.Steps x.decoder x.command ([] ++ [.nvs (field x.SSID) (field x.password)])
      (x.decoder.enter .commandNVSWiFi).idle [] := .head hhead (.single hfields)
  exact x.steps.trans hread

/-- What the packets keep as long as none ends right behind the head. -/
def OnTrack (x : Provisioning) (d : Decoder) (u : List UInt8) (ps : List (List UInt8)) : Prop :=
  x.OnWay d (u ++ ps.flatten) ∧ x.Uncut ps

/-- A packet is read as it is with the packets to come already there, and leads to no block. -/
theorem OnTrack.packet {p : List UInt8} {ps : List (List UInt8)} (h : x.OnTrack d u (p :: ps))
    (hsteps : parser.Steps d (u ++ p) es d' u') (hb : parser.Blocked d' u') :
    parser.Steps d (u ++ p ++ ps.flatten) es d' (u' ++ ps.flatten) ∧ ¬ d'.AtBlock u' ∧
      x.OnTrack d' u' ps := by
  obtain ⟨hway, hcut⟩ := h
  obtain ⟨⟨hlen, hne⟩, hrest⟩ := hcut.tail
  rw [List.flatten_cons, ← List.append_assoc] at hway
  obtain ⟨hall, hway'⟩ := hway.steps hlen hne hsteps
  exact ⟨hall, hway'.not_atBlock_append hb, hway', hrest⟩

/-- **Without the cut** exactly one `CommandNVSWiFi` runs, with the fields that were sent. -/
theorem feedAll_uncut (h : ¬ x.CutBehindHead) (env : Env) {qs : List (Nat × List UInt8)}
    (hqs : qs.map Prod.snd = x.first :: x.packets) :
    ∃ r j, (∀ k, Printer.feedAll env (j + k) qs x.s = .ok r) ∧ ∀ s', r = some s' →
      s'.log = x.s.log ++ (x.events ++ [.nvs (field x.SSID) (field x.password)]) := by
  have hstart : x.OnTrack x.s.decoder x.s.remainder (x.first :: x.packets) :=
    ⟨.inl (stream_eq (x := x) ▸ before_stream), uncut h⟩
  obtain ⟨r, j, hrun, hres⟩ := Printer.feedAll_feeds (P := x.OnTrack)
    (fun _ _ _ _ hP _ _ _ hsteps hb => (hP.packet hsteps hb).2) env qs x.s (hqs ▸ hstart)
  refine ⟨r, j, hrun, fun s' hs' => ?_⟩
  obtain ⟨es, hlog, hfeeds⟩ := hres s' hs'
  rw [hqs] at hfeeds
  have hsteps := hfeeds.steps_of (P := x.OnTrack) (fun _ _ _ _ _ _ _ hP hsteps hb =>
    ⟨(hP.packet hsteps hb).1, (hP.packet hsteps hb).2.2⟩) hstart
  rw [stream_eq] at hsteps
  obtain ⟨-, -, rfl⟩ := hsteps.unique (hfeeds.blocked (by simp)) steps_stream rfl
  exact hlog

/-! ## With the cut -/

/-- A reaction before the command, with at least the fields still to come: just the head has
arrived, or the reaction is what it is with the bytes to come. -/
theorem Before.react (hv : 64 ≤ v.length) (hv' : v.length ≤ 72) (h : x.Before d (u ++ v))
    (hreact : d.react u = some (d', u', es)) :
    (d = x.decoder ∧ u = nvsWiFi ∧ v = x.fields) ∨
      d.react (u ++ v) = some (d', u' ++ v, es) ∧ x.Before d' (u' ++ v) := by
  by_cases hhead : d.Scanning ∧ u = nvsWiFi
  · obtain ⟨hscan, rfl⟩ := hhead
    obtain ⟨hd, hfields⟩ := h.at_head hscan hv'
    exact .inl ⟨hd, rfl, hfields⟩
  · have hsame : d.react (u ++ v) = some (d', u' ++ v, es) :=
      Decoder.react_append (fun hscan hu => absurd ⟨hscan, hu⟩ hhead) hreact
    refine .inr ⟨hsame, ?_⟩
    rcases h.cases with ⟨rfl, heq⟩ | ⟨d'', w, es', hreact', hbefore⟩
    · -- at the command less than its head would have arrived
      have hlen := congrArg List.length heq
      rw [List.length_append, length_command] at hlen
      have hpart : u <+: x.command := heq ▸ List.prefix_append ..
      have hu : u <+: nvsWiFi := List.prefix_of_prefix_length_le hpart (List.prefix_append ..)
        (Nat.le_of_add_le_add_right (hlen.le.trans (Nat.add_le_add_left hv 8)))
      rcases Nat.lt_or_ge u.length 8 with hlt | hge
      · rw [parser_blocked.1 (Decoder.blocked_of_prefix x.scanning hu hlt)] at hreact
        cases hreact
      · exact absurd ⟨x.scanning, hu.eq_of_length_le hge⟩ hhead
    · rw [hsame] at hreact'
      cases hreact'
      exact hbefore

/-- Where a packet leaves the reader before the command, with at least the fields still to come: not
at a block; before the command, if more than the fields are to come; and behind the first byte of
the head, if just the fields are. -/
theorem Before.blocked (hv : 64 ≤ v.length) (hv' : v.length ≤ 72) (h : x.Before d (u ++ v))
    (hsteps : parser.Steps d u es d' u') (hb : parser.Blocked d' u') :
    ¬ d'.AtBlock u' ∧
      (v ≠ x.fields → parser.Steps d (u ++ v) es d' (u' ++ v) ∧ x.Before d' (u' ++ v)) ∧
      (v = x.fields → d' = x.decoder ∧ u' = nvsWiFi.tail ∧
        parser.Steps d (u ++ v) es x.decoder x.command) := by
  obtain ⟨hskip, hwait⟩ := Decoder.steps_head_alone x.scanning
  obtain ⟨hall, hbefore⟩ | ⟨es₁, es₂, d₁, u₁, rfl, ⟨rfl, rfl, rfl⟩, h₁, h₂⟩ :=
    hsteps.append_until (J := fun d u => x.Before d (u ++ v))
      (Q := fun d u => d = x.decoder ∧ u = nvsWiFi ∧ v = x.fields)
      (fun _ _ _ _ _ h hreact => h.react hv hv' hreact) h
  · refine ⟨OnWay.not_atBlock_append (.inl hbefore) hb, fun _ => ⟨hall, hbefore⟩, ?_⟩
    rintro rfl
    -- the head had arrived, so the reader did not wait
    rcases hbefore.cases with ⟨rfl, heq⟩ | ⟨d'', w, es', hreact, hnext⟩
    · have hu : u' = nvsWiFi := List.append_cancel_right heq
      obtain ⟨-, hu', -⟩ := hskip.of_blocked (hu ▸ hb)
      exact absurd hu' (by decide)
    · have hfew := Decoder.react_of_blocked hb hreact
      rw [length_fields] at hfew
      exact absurd hnext.length_le (Nat.not_le.2 hfew)
  · obtain ⟨rfl, rfl, rfl⟩ := h₂.unique hb hskip hwait
    refine ⟨fun hat => x.scanning.2 hat.1, fun hne => absurd rfl hne, fun _ => ⟨rfl, rfl, ?_⟩⟩
    rw [List.append_nil]
    exact h₁

end Provisioning

/-! ## The price of the command -/

namespace Decoder

variable {d d' : Decoder} {u u' : List UInt8} {es es' : List Event} {z : Zlib}

/-- The event of a `CommandNVSWiFi`. -/
def isNvs : Event → Bool
  | .nvs _ _ => true
  | _ => false

/-- The price of the `CommandNVSWiFi` among the events: 72 bytes each. -/
def nvsPrice (es : List Event) : Nat := 72 * es.countP isNvs

/-- What is paid of it when the head has been read. -/
def nvsSaved (d : Decoder) : Nat := if d.DecodeStatus = .commandNVSWiFi then 8 else 0

theorem nvsPrice_append (es es' : List Event) :
    nvsPrice (es ++ es') = nvsPrice es + nvsPrice es' := by
  rw [nvsPrice, List.countP_append, Nat.mul_add]
  rfl

/-- The bytes of a row are no `CommandNVSWiFi`. -/
theorem nvsPrice_token (b : UInt8) : nvsPrice (d.token b).2 = 0 := by
  have hfinish (d : Decoder) : nvsPrice d.finish.2 = 0 := by
    unfold finish
    split <;> rfl
  unfold token
  split
  · unfold headByte
    split
    · rfl
    · exact hfinish _
  · exact hfinish _

/-- **No reaction runs a `CommandNVSWiFi` that is not paid for.** -/
theorem react_nvsPays (h : d.react u = some (d', u', es)) :
    nvsPrice es + d'.nvsSaved + u'.length ≤ d.nvsSaved + u.length := by
  unfold react at h
  split at h
  case h_5 hs =>
    obtain ⟨hn, rfl, rfl, rfl⟩ := arg_eq_some.1 h
    have hstatus : (d.token ((u.take 1).getD 0 0)).1.nvsSaved = 0 := by
      rw [nvsSaved, Printer.token_DecodeStatus, hs]
      split <;> rfl
    rw [nvsPrice_token, hstatus, List.length_drop]
    omega
  case h_9 hs =>
    unfold fetch at h
    split at h
    · obtain ⟨-, rfl, rfl, rfl⟩ := arg_eq_some.1 h
      simp [nvsPrice, nvsSaved, hs]
    · split at h
      · obtain ⟨-, rfl, rfl, rfl⟩ := arg_eq_some.1 h
        simp [nvsPrice, nvsSaved, hs]
      · cases h
  case h_10 hs =>
    obtain ⟨hn, rfl, rfl, rfl⟩ := arg_eq_some.1 h
    simp [nvsPrice, nvsSaved, isNvs, idle, hs]
    omega
  case h_13 =>
    unfold scan at h
    split at h
    next st head hf =>
      obtain ⟨hm, hlt, -⟩ := findHead_eq_some hf
      have hpaid : (d.enter st).nvsSaved ≤ head.length := by
        have hhead : ∀ h ∈ CMDHead, h.1 = .commandNVSWiFi → h.2.length = 8 := by decide
        have hstatus : (d.enter st).DecodeStatus = st := by unfold enter; split <;> rfl
        unfold nvsSaved
        split
        next hnvs => rw [hhead _ hm (hstatus.symm.trans hnvs)]
        next => exact Nat.zero_le _
      simp only [Option.some.injEq, Prod.mk.injEq] at h
      obtain ⟨rfl, rfl, rfl⟩ := h
      simp only [nvsPrice, List.countP_nil, List.length_drop]
      omega
    next =>
      split at h
      next =>
        simp only [Option.some.injEq, Prod.mk.injEq] at h
        obtain ⟨rfl, rfl, rfl⟩ := h
        simp only [nvsPrice, List.countP_nil, List.length_drop]
        omega
      next => cases h
  all_goals
    rename_i hs
    obtain ⟨-, rfl, rfl, rfl⟩ := arg_eq_some.1 h
    simp [nvsPrice, nvsSaved, isNvs, idle, hs]

/-- No packet does, if zlib rejects every block. -/
theorem reads_nvsPays (hz : ∀ data, z.inflateInit2 data = none) (h : Reads z d u es d' u') :
    nvsPrice es + d'.nvsSaved + u'.length ≤ d.nvsSaved + u.length := by
  have hpays {es : List Event} {d' : Decoder} {u' : List UInt8}
      (h : parser.Steps d u es d' u') := h.pays rfl nvsPrice_append react_nvsPays
  cases h with
  | plain hs => exact hpays hs
  | @rejected _ d₁ b rest hs =>
    have hall := hpays hs
    have hidle : ((d₁.inflating b).released false).nvsSaved = 0 := rfl
    rw [List.length_cons] at hall
    omega
  | inflated _ _ _ _ hsome =>
    rw [hz] at hsome
    cases hsome

/-- Nor do packets. -/
theorem readsAll_nvsPays (hz : ∀ data, z.inflateInit2 data = none) {ps : List (List UInt8)}
    (h : ReadsAll z d u ps es d' u') :
    nvsPrice es + d'.nvsSaved + u'.length ≤ d.nvsSaved + u.length + ps.flatten.length := by
  induction h with
  | nil => simp [nvsPrice]
  | cons h _ ih =>
    have hfirst := reads_nvsPays hz h
    rw [List.length_append] at hfirst
    rw [nvsPrice_append, List.flatten_cons, List.length_append]
    omega

end Decoder

/-- A zlib that rejects every block. -/
def Zlib.rejecting : Zlib where
  z_stream := Unit
  inflateInit2 _ := none
  inflate strm _ := (.Z_DATA_ERROR, [], strm)
  inflate_le _ _ := Nat.zero_le _

/-- Surroundings in which every block is rejected. -/
def Env.rejecting : Env := ⟨Zlib.rejecting, fun _ => 1⟩

theorem Env.rejecting_fair : Env.rejecting.Fair := fun k => ⟨k, Nat.le_refl k, Nat.one_pos⟩

theorem Env.rejecting_finite : Env.rejecting.zlib.Finite := fun _ _ h => by cases h

namespace Provisioning

variable {x : Provisioning} {d d' : Decoder} {u u' : List UInt8} {es : List Event} {z : Zlib}

/-- **With the cut** no `CommandNVSWiFi` runs after what was before the command: what is still
unread is a byte too short to pay for one. -/
theorem reads_cut (hz : ∀ data, z.inflateInit2 data = none) {ps : List (List UInt8)}
    (h : ReadsAll z d u ps es d' u') (hbefore : x.Before d (u ++ ps.flatten))
    (hlen : ∀ l r, ps = l ++ r → l ≠ [] → r.flatten.length ≤ 72)
    (hcut : ∃ l r, ps = l ++ r ∧ l ≠ [] ∧ r.flatten = x.fields) :
    ∃ es₁ es₂, es = es₁ ++ es₂ ∧ parser.Steps d (u ++ ps.flatten) es₁ x.decoder x.command ∧
      Decoder.nvsPrice es₂ = 0 := by
  induction h with
  | nil =>
    obtain ⟨l, r, heq, hl, -⟩ := hcut
    exact absurd (List.append_eq_nil_iff.1 heq.symm).1 hl
  | @cons d d₁ d' u u₁ u' p ps es es' hreads hrest ih =>
    rw [List.flatten_cons, ← List.append_assoc] at hbefore ⊢
    have hv' : ps.flatten.length ≤ 72 := hlen [p] ps rfl (by simp)
    obtain ⟨l, r, heq, hl, hr⟩ := hcut
    obtain ⟨q, l, rfl⟩ := List.exists_cons_of_ne_nil hl
    rw [List.cons_append] at heq
    obtain ⟨rfl, hps⟩ := List.cons.inj heq
    have hv : 64 ≤ ps.flatten.length := by
      rw [hps, List.flatten_append, List.length_append, hr, length_fields]
      exact Nat.le_add_left ..
    obtain ⟨hsteps, hb⟩ : parser.Steps d (u ++ p) es d₁ u₁ ∧ parser.Blocked d₁ u₁ := by
      cases hreads with
      | plain hs hb => exact ⟨hs, hb⟩
      | rejected hs hb hat => exact absurd hat (hbefore.blocked hv hv' hs hb).1
      | inflated hs hb hat => exact absurd hat (hbefore.blocked hv hv' hs hb).1
    obtain ⟨-, hmore, hjust⟩ := hbefore.blocked hv hv' hsteps hb
    by_cases hfields : ps.flatten = x.fields
    · obtain ⟨rfl, rfl, hall⟩ := hjust hfields
      refine ⟨es, es', rfl, hall, ?_⟩
      have hpaid := Decoder.readsAll_nvsPays hz hrest
      have hsaved : x.decoder.nvsSaved = 0 := by
        refine if_neg fun hs => x.scanning.1 ?_
        rw [hs]
        decide
      have htail : nvsWiFi.tail.length = 7 := rfl
      rw [hsaved, htail, hfields, length_fields] at hpaid
      unfold Decoder.nvsPrice at hpaid ⊢
      omega
    · obtain ⟨hall, hnext⟩ := hmore hfields
      have hl' : l ≠ [] := by
        rintro rfl
        exact hfields (hps ▸ hr)
      obtain ⟨es₁, es₂, rfl, hsteps', hfree⟩ := ih hnext
        (fun l r heq _ => hlen (p :: l) r (by rw [heq]; rfl) (by simp)) ⟨l, r, hps, hl', hr⟩
      exact ⟨es ++ es₁, es₂, (List.append_assoc ..).symm, hall.trans hsteps', hfree⟩

/-- What is stored was not cut behind the head. -/
theorem Stored.not_cut (h : x.Stored) : ¬ x.CutBehindHead := by
  intro hcut
  obtain ⟨qs, hqs, hnever⟩ := Printer.exists_not_refused Env.rejecting_fair Env.rejecting_finite
    x.tidy (x.first :: x.packets)
  obtain ⟨s', n, a, b, hrun, hlog, -⟩ := h Env.rejecting qs hqs hnever
  obtain ⟨es, hreads, hlog'⟩ := Printer.feedAll_reads Env.rejecting_fair Env.rejecting_finite x.tidy
    (hrun n (Nat.le_refl n))
  rw [hqs] at hreads
  have hes : es = x.events ++ [.nvs a b] := by
    rw [hlog', List.append_assoc] at hlog
    exact List.append_cancel_left hlog
  obtain ⟨es₁, es₂, heq, hsteps, hfree⟩ := reads_cut (x := x) (fun _ => rfl) hreads
    (stream_eq (x := x) ▸ before_stream) (fun _ _ => length_packets_le) hcut
  rw [stream_eq] at hsteps
  -- the events before the command are determined
  obtain ⟨rest, hrest, hcommand⟩ := hsteps.extend steps_stream rfl
  obtain ⟨-, -, hsame⟩ := (x.steps.trans hcommand).unique rfl steps_stream rfl
  rw [hrest] at hsame
  obtain rfl : x.events = es₁ := List.append_cancel_right hsame
  obtain rfl : [Event.nvs a b] = es₂ := List.append_cancel_left (hes.symm.trans heq)
  exact absurd hfree (show ¬ 72 = 0 by decide)

/-- What is stored had a NUL behind the SSID, or no password. -/
theorem Stored.room (h : x.Stored) : x.SSID.length < 32 ∨ x.password = [] := by
  obtain ⟨qs, hqs, hnever⟩ := Printer.exists_not_refused Env.rejecting_fair Env.rejecting_finite
    x.tidy (x.first :: x.packets)
  obtain ⟨s', n, a, b, hrun, hlog, hsave⟩ := h Env.rejecting qs hqs hnever
  obtain ⟨r, j, hrun', hres⟩ := feedAll_uncut h.not_cut Env.rejecting hqs
  have hsame := hrun' n
  rw [hrun _ (Nat.le_add_left n j)] at hsame
  have hlog' := hres s' (Except.ok.inj hsame).symm
  rw [← List.append_assoc] at hlog'
  rw [hlog'] at hsave
  exact (SaveWifiInfo_iff _ x.SSID_le x.password_le x.SSID_NUL x.password_NUL).1 hsave

/-- **Provisioning stores what was sent exactly if** no packet ends right behind the head, and the
SSID is shorter than its field or there is no password. -/
theorem provisioned_iff (x : Provisioning) :
    x.Stored ↔ ¬ x.CutBehindHead ∧ (x.SSID.length < 32 ∨ x.password = []) := by
  refine ⟨fun h => ⟨h.not_cut, h.room⟩, ?_⟩
  rintro ⟨hcut, hroom⟩ env qs hqs hnever
  obtain ⟨r, j, hrun, hres⟩ := feedAll_uncut hcut env hqs
  cases r with
  | none => exact absurd (hrun 0) (hnever j)
  | some s' =>
    have hlog := hres s' rfl
    rw [← List.append_assoc] at hlog
    refine ⟨s', j, _, _, fun fuel hfuel => ?_, hlog, ?_⟩
    · obtain ⟨k, rfl⟩ := Nat.exists_eq_add_of_le hfuel
      exact hrun k
    · rw [hlog]
      exact (SaveWifiInfo_iff _ x.SSID_le x.password_le x.SSID_NUL x.password_NUL).2 hroom

/-- The command behind a density command, whose look-ahead is the first byte of the head, and cut in
the field of the SSID. -/
def afterDensity : Provisioning where
  s := .init 2
  tidy := .inl ⟨rfl, rfl⟩
  SSID := [0x41]
  SSID_le := by decide
  SSID_NUL := by decide
  password := List.replicate 32 0x42
  password_le := by decide
  password_NUL := by decide
  before := [0x40, 0x53, 0x7E, 0x7E, 0x40]
  first := [0x40, 0x53, 0x7E, 0x7E, 0x40] ++ nvsWiFi ++ [0x41]
  packets := [List.replicate 31 0 ++ List.replicate 32 0x42]
  begun := nvsWiFi ++ [0x41]
  first_eq := rfl
  packets_eq := rfl
  events := [.density 64]
  decoder := { (Printer.init 2).decoder with density := 64 }
  steps := show parser.Steps _ _ ([] ++ ([.density 64] ++ [])) _ _ from .head rfl (.head rfl .refl)
  scanning := ⟨by decide, by decide⟩

/-- A password of 32 bytes is handed on. -/
theorem provisioned_afterDensity : afterDensity.Stored :=
  (provisioned_iff afterDensity).2
    ⟨not_cut_of_lt (show 63 < 64 by decide), .inl (show 1 < 32 by decide)⟩

/-- The command in two packets, the first one of which ends right behind its head. -/
def cutAtHead : Provisioning where
  s := .init 2
  tidy := .inl ⟨rfl, rfl⟩
  SSID := [0x41]
  SSID_le := by decide
  SSID_NUL := by decide
  password := [0x42]
  password_le := by decide
  password_NUL := by decide
  before := []
  first := nvsWiFi
  packets := [field [0x41] ++ field [0x42]]
  begun := nvsWiFi
  first_eq := rfl
  packets_eq := rfl
  events := []
  decoder := (Printer.init 2).decoder
  steps := .refl
  scanning := ⟨by decide, by decide⟩

/-- The command in one packet, with an SSID of 32 bytes. -/
def fullSSID : Provisioning where
  s := .init 2
  tidy := .inl ⟨rfl, rfl⟩
  SSID := List.replicate 32 0x41
  SSID_le := by decide
  SSID_NUL := by decide
  password := [0x42]
  password_le := by decide
  password_NUL := by decide
  before := []
  first := nvsWiFi ++ (field (List.replicate 32 0x41) ++ field [0x42])
  packets := []
  begun := nvsWiFi ++ (field (List.replicate 32 0x41) ++ field [0x42])
  first_eq := rfl
  packets_eq := List.append_nil _
  events := []
  decoder := (Printer.init 2).decoder
  steps := .refl
  scanning := ⟨by decide, by decide⟩

/-- **The head is lost at the end of a packet, and an SSID of 32 bytes runs on into the
password.** -/
theorem not_stored : ¬ cutAtHead.Stored ∧ ¬ fullSSID.Stored := by
  refine ⟨fun h => h.not_cut ⟨[nvsWiFi], [field [0x41] ++ field [0x42]], rfl, ?_, rfl⟩, fun h => ?_⟩
  · exact List.cons_ne_nil _ _
  · exact absurd h.room (by decide)

end Provisioning

end ThermalPrinter
