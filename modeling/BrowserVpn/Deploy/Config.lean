import BrowserVpn.Deploy.Settings
import BrowserVpn.Installer.ExportKey

/-!
# Deploy.Config — what is saved of the settings

`ensure_config`. The first call that takes effect decides the kind, the host and the port
for good. The extra addresses go through the file and back on each later call; they
survive since the file has them as `normalize_addresses` leaves them. A call that fails
takes effect, too, if `os.replace` was done and only `fsync_directory` raised.
-/

namespace BrowserVpn

open Data Python

namespace Python

/-- `json.loads` takes three more constants than the grammar, and no integer that `int`
refuses. -/
def jsonDialect : Json.Dialect where
  constants := Json.Dialect.standard.constants ++
    [(ascii "NaN", .nonfinite), (ascii "Infinity", .nonfinite), (ascii "-Infinity", .nonfinite)]
  distinct := by simp [Json.Dialect.standard, ascii, Json.isDigit]
  nonempty := by simp [Json.Dialect.standard, ascii]
  maxDigits := some 4300

/-- `json.loads(path.read_text(encoding="utf-8"))`, `none` for a `ValueError`. -/
def loads (bytes : List UInt8) : Option Json :=
  match bytes.toByteArray.utf8Decode? with
  | none => none
  | some text => Json.parse jsonDialect ((universalNewlines text.toList).flatMap utf16)

/-- The characters of code units, `none` when a surrogate stands alone. -/
def fromUtf16 : CodeUnits → Option (List Char)
  | [] => some []
  | u :: rest =>
      if u.toNat < 0xD800 || 0xDFFF < u.toNat then
        (fromUtf16 rest).map fun s => Char.ofNat u.toNat :: s
      else match rest with
        | [] => none
        | w :: rest =>
            if u.toNat < 0xDC00 && 0xDC00 ≤ w.toNat && w.toNat ≤ 0xDFFF then
              (fromUtf16 rest).map fun s =>
                Char.ofNat (0x10000 + (u.toNat - 0xD800) * 0x400 + (w.toNat - 0xDC00)) :: s
            else none

/-- `members.get(key)`. Of members with one key the last counts. -/
def get (members : List (CodeUnits × Json)) (key : String) : Option Json :=
  (members.reverse.find? fun m => m.1 == ascii key).map Prod.snd

/-- `value == s` for a string. -/
def equalsText (s : List Char) : Option Json → Bool
  | some (.str units) => units == s.flatMap utf16
  | _ => false

/-- `value == n` for an integer. A truth value counts as one, too. -/
def equalsInt (n : Nat) : Option Json → Bool
  | some (.bool b) => n == b.toNat
  | some (.num mantissa exponent) =>
      if exponent = 0 then mantissa == n else toDouble (mantissa * 10 ^ exponent) == some (n : ℚ)
  | _ => false

end Python

/-! ## ensure_config -/

def Kind.text : Kind → List Char
  | .ip => "ip".toList
  | .domain => "domain".toList

/-- What `ensure_config` returns, and saves. -/
structure SavedConfig where
  kind : Kind
  host : List Char
  port : Nat
  selfAddresses : List (List Char)

/-- `json.dumps(desired, separators=(",", ":"))` -/
def SavedConfig.dumps (config : SavedConfig) : CodeUnits :=
  Json.encodeObject
    [(ascii "kind", dumpsString config.kind.text), (ascii "host", dumpsString config.host),
      (ascii "port", Json.encodeNat config.port),
      (ascii "self_addresses", Json.encodeArray (config.selfAddresses.map dumpsString))]

/-- The bytes of the file. -/
def SavedConfig.data (config : SavedConfig) : List UInt8 := utf8 (asciiText config.dumps ++ ['\n'])

/-- What is at the path of `config.json`. -/
inductive ConfigPath where
  | symlink
  | missing
  | file (bytes : List UInt8)
deriving DecidableEq

/-- What the file system does to a function that reads a file and may write it. -/
inductive Disk where
  /-- No `OSError` is raised. -/
  | works
  /-- The file cannot be looked at or read. -/
  | unread
  /-- `atomic_write` fails before `os.replace` is done. -/
  | unwritten
  /-- It fails behind it, in `fsync_directory`. -/
  | unsynced
deriving DecidableEq

/-- `atomic_write` where `old` is at the path: whether it raises, and what is there
afterwards. -/
def Disk.atomicWrite {α : Type} (disk : Disk) (old new : α) : Except SettingsError Unit × α :=
  match disk with
  | .works => (.ok (), new)
  | .unread | .unwritten => (.error .os, old)
  | .unsynced => (.error .os, new)

/-- `os.replace` is done. -/
def Disk.replaces : Disk → Bool
  | .works | .unsynced => true
  | .unread | .unwritten => false

theorem Disk.atomicWrite_snd {α : Type} (disk : Disk) (old new : α) :
    (disk.atomicWrite old new).2 = if disk.replaces then new else old := by
  cases disk <;> rfl

section

variable [Ipv6]

/-- One turn of `normalize_addresses` on a value of the file. What is no text of
characters is no address. -/
def addStored (normalized : List (List Char)) (value : CodeUnits) :
    Except SettingsError (List (List Char)) :=
  match fromUtf16 value with
  | none => .error (.manager "Every SHBVPN_SELF_ADDRESSES entry must be a public IP")
  | some value => addAddress normalized value

/-- The strings of a list, `none` when something else is in it. -/
def strings (items : List Json) : Option (List CodeUnits) :=
  items.mapM fun item => match item with
    | .str s => some s
    | _ => none

/-- `normalize_addresses(existing.get("self_addresses", []))` with the checks before it. -/
def storedAddresses (existing : List (CodeUnits × Json)) :
    Except SettingsError (List (List Char)) :=
  match get existing "self_addresses" with
  | none => .ok []
  | some (.arr items) =>
      match strings items with
      | none => .error (.manager "Saved self_addresses is invalid")
      | some values => values.foldlM addStored []
  | some _ => .error (.manager "Saved self_addresses is invalid")

/-- What the file has, if it belongs to the same installation. -/
def savedAddresses (settings : Settings) : ConfigPath → Except SettingsError (List (List Char))
  | .symlink => .error (.manager "Saved config.json must not be a symlink")
  | .missing => .ok []
  | .file bytes =>
      match loads bytes with
      | none => .error (.manager "Saved config.json is invalid")
      | some (.obj existing) =>
          if equalsText settings.kind.text (get existing "kind") &&
              equalsText settings.host (get existing "host") &&
              equalsInt settings.port (get existing "port") then
            storedAddresses existing
          else .error (.manager "Saved host, kind, or port differs; use a new runtime volume")
      | some _ => .error (.manager "Saved host, kind, or port differs; use a new runtime volume")

/-- The result, and what is at the path afterwards. -/
def ensureConfig (settings : Settings) (disk : Disk) (path : ConfigPath) :
    Except SettingsError SavedConfig × ConfigPath :=
  if disk = .unread then (.error .os, path)
  else match savedAddresses settings path with
    | .error e => (.error e, path)
    | .ok saved =>
        let desired : SavedConfig :=
          { kind := settings.kind, host := settings.host, port := settings.port,
            selfAddresses := settings.selfAddresses.getD saved }
        if path = .file desired.data then (.ok desired, path)
        else match disk.atomicWrite path (.file desired.data) with
          | (.error e, path) => (.error e, path)
          | (.ok (), path) => (.ok desired, path)

variable [Tables]

/-- The path, with the settings of the calls that took effect, the latest first: that
succeeded, or left another file behind. -/
structure Volume where
  path : ConfigPath
  accepted : List Settings

/-- `ensure_config(validate_settings(environment))` -/
def Volume.call (v : Volume) (environment : Environment) (disk : Disk) :
    Except SettingsError SavedConfig × Volume :=
  match validateSettings environment with
  | .error e => (.error e, v)
  | .ok settings =>
      match ensureConfig settings disk v.path with
      | (.error e, path) =>
          (.error e, if path = v.path then v else ⟨path, settings :: v.accepted⟩)
      | (.ok config, path) => (.ok config, ⟨path, settings :: v.accepted⟩)

/-- A new volume after calls one after another. -/
def Volume.after (calls : List (Environment × Disk)) : Volume :=
  calls.foldl (fun v call => (v.call call.1 call.2).2) ⟨.missing, []⟩

end

/-! ## What is read of what was written -/

/-- The units of a character are read as it. -/
theorem fromUtf16_cons (c : Char) (rest : CodeUnits) :
    fromUtf16 (utf16 c ++ rest) = (fromUtf16 rest).map fun s => c :: s := by
  have hvalid : c.toNat < 0xD800 ∨ (0xDFFF < c.toNat ∧ c.toNat < 0x110000) := c.valid
  rw [utf16]
  by_cases hplane : c.toNat < 0x10000
  · have hunit : (c.toNat.toUInt16).toNat = c.toNat := by
      rw [UInt16.toNat_ofNat']
      omega
    have hsingle : (decide (c.toNat < 0xD800) || decide (0xDFFF < c.toNat)) = true := by
      simp only [Bool.or_eq_true, decide_eq_true_eq]
      omega
    rw [if_pos hplane, List.cons_append, List.nil_append, fromUtf16.eq_def]
    simp only [hunit, hsingle, if_true, Char.ofNat_toNat]
  · have hhigh : ((0xD800 + (c.toNat - 0x10000) / 0x400).toUInt16).toNat =
        0xD800 + (c.toNat - 0x10000) / 0x400 := by
      rw [UInt16.toNat_ofNat']
      omega
    have hlow : ((0xDC00 + (c.toNat - 0x10000) % 0x400).toUInt16).toNat =
        0xDC00 + (c.toNat - 0x10000) % 0x400 := by
      rw [UInt16.toNat_ofNat']
      omega
    have hback : 0x10000 + (0xD800 + (c.toNat - 0x10000) / 0x400 - 0xD800) * 0x400 +
        (0xDC00 + (c.toNat - 0x10000) % 0x400 - 0xDC00) = c.toNat := by omega
    have hsingle : (decide (0xD800 + (c.toNat - 0x10000) / 0x400 < 0xD800) ||
        decide (0xDFFF < 0xD800 + (c.toNat - 0x10000) / 0x400)) = false := by
      simp only [Bool.or_eq_false_iff, decide_eq_false_iff_not]
      omega
    have hpair : (decide (0xD800 + (c.toNat - 0x10000) / 0x400 < 0xDC00) &&
        decide (0xDC00 ≤ 0xDC00 + (c.toNat - 0x10000) % 0x400) &&
          decide (0xDC00 + (c.toNat - 0x10000) % 0x400 ≤ 0xDFFF)) = true := by
      simp only [Bool.and_eq_true, decide_eq_true_eq]
      omega
    rw [if_neg hplane, List.cons_append, List.cons_append, List.nil_append, fromUtf16.eq_def]
    simp only [hhigh, hlow, hsingle, hpair, hback, Bool.false_eq_true, if_false, if_true,
      Char.ofNat_toNat]

theorem fromUtf16_utf16 (s : List Char) : fromUtf16 (s.flatMap utf16) = some s := by
  induction s with
  | nil => rw [List.flatMap_nil, fromUtf16]
  | cons c s ih => rw [List.flatMap_cons, fromUtf16_cons, ih, Option.map_some]

/-- Two texts with one encoding are the same. -/
theorem utf16_text_inj {s t : List Char} (h : s.flatMap utf16 = t.flatMap utf16) : s = t := by
  have hback := fromUtf16_utf16 s
  rw [h, fromUtf16_utf16] at hback
  exact (Option.some.inj hback).symm

/-- What is written is in ASCII. -/
theorem SavedConfig.dumps_printable (config : SavedConfig) : Json.Printable config.dumps := by
  have haddresses : Json.Printable (Json.encodeArray (config.selfAddresses.map dumpsString)) := by
    refine Json.printable_encodeArray fun t ht => ?_
    obtain ⟨s, -, rfl⟩ := List.mem_map.1 ht
    exact Json.printable_encodeString _
  refine Json.printable_encodeObject fun t ht => ?_
  simp only [List.mem_cons, List.not_mem_nil, or_false] at ht
  rcases ht with rfl | rfl | rfl | rfl
  · exact Json.printable_encodeString _
  · exact Json.printable_encodeString _
  · exact Json.printable_encodeNat config.port
  · exact haddresses

/-- The members of the file. -/
def SavedConfig.members (config : SavedConfig) : List (CodeUnits × Json) :=
  [(ascii "kind", .str (config.kind.text.flatMap utf16)),
    (ascii "host", .str (config.host.flatMap utf16)), (ascii "port", .num config.port 0),
    (ascii "self_addresses", .arr (config.selfAddresses.map fun t => .str (t.flatMap utf16)))]

/-- No port is too long for `int`. -/
theorem takes_port {port : Nat} (h : port ≤ 65535) : jsonDialect.Takes port := by
  have hlength : (Json.encodeNat port).length ≤ 5 := by
    rw [Json.encodeNat, List.length_map]
    exact (Nat.length_toDigits_le_iff (by decide) (by decide)).2 (by omega)
  rintro digits ⟨⟩
  exact Nat.le_trans hlength (by decide)

theorem SavedConfig.parses_dumps {config : SavedConfig} (hport : config.port ≤ 65535) :
    Json.Parses jsonDialect config.dumps (.obj config.members) := by
  have haddresses : Json.Parses jsonDialect (Json.encodeArray (config.selfAddresses.map dumpsString))
      (.arr (config.selfAddresses.map fun t => .str (t.flatMap utf16))) := by
    refine Json.parses_encodeArray ?_
    rw [List.forall₂_map_left_iff, List.forall₂_map_right_iff, List.forall₂_same]
    exact fun t _ => Json.parses_encodeString _ _
  refine Json.parses_encodeObject ?_
  exact .cons ⟨rfl, Json.parses_encodeString _ _⟩ (.cons ⟨rfl, Json.parses_encodeString _ _⟩
    (.cons ⟨rfl, Json.parses_encodeNat (takes_port hport)⟩ (.cons ⟨rfl, haddresses⟩ .nil)))

/-- Text without CR has the same line ends in every mode. -/
theorem universalNewlines_of_no_cr {s : List Char} (h : '\r' ∉ s) : universalNewlines s = s := by
  induction s with
  | nil => rw [universalNewlines]
  | cons c s ih =>
      simp only [List.mem_cons, not_or] at h
      rw [universalNewlines_cons (Ne.symm h.1), ih h.2]

theorem SavedConfig.loads_data {config : SavedConfig} (hport : config.port ≤ 65535) :
    loads config.data = some (.obj config.members) := by
  have hascii := config.dumps_printable
  have hcr : '\r' ∉ asciiText config.dumps ++ ['\n'] := by
    intro hmem
    rcases List.mem_append.1 hmem with hmem | hmem
    · obtain ⟨u, hu, heq⟩ := List.mem_map.1 hmem
      have hchars : ∀ n < 127, 32 ≤ n → Char.ofNat n ≠ '\r' := by decide
      have hrange := hascii u hu
      exact hchars u.toNat (by omega) hrange.1 heq
    · exact absurd (List.mem_singleton.1 hmem) (by decide)
  have hbytes : config.data.toByteArray = (asciiText config.dumps ++ ['\n']).utf8Encode := rfl
  have hunits : (asciiText config.dumps ++ ['\n']).flatMap utf16 = config.dumps ++ [10] := by
    rw [List.flatMap_append, asciiText_utf16 hascii]
    rfl
  rw [loads, hbytes, List.utf8Decode?_utf8Encode]
  simp only [universalNewlines_of_no_cr hcr, hunits]
  exact (parses_dumps hport).parse_space (by simp [Json.isSpace])

theorem Kind.text_inj {k l : Kind} (h : k.text = l.text) : k = l := by
  cases k <;> cases l <;> first | rfl | exact absurd h (by decide)

/-- The members that are looked up. -/
theorem SavedConfig.get_members (config : SavedConfig) :
    get config.members "kind" = some (.str (config.kind.text.flatMap utf16)) ∧
      get config.members "host" = some (.str (config.host.flatMap utf16)) ∧
      get config.members "port" = some (.num config.port 0) ∧
      get config.members "self_addresses" =
        some (.arr (config.selfAddresses.map fun t => .str (t.flatMap utf16))) :=
  ⟨rfl, rfl, rfl, rfl⟩

theorem equalsText_utf16 {s t : List Char} :
    equalsText s (some (.str (t.flatMap utf16))) = true ↔ s = t := by
  rw [equalsText, beq_iff_eq]
  exact ⟨fun h => (utf16_text_inj h).symm, fun h => by rw [h]⟩

theorem equalsInt_nat {n m : Nat} : equalsInt n (some (.num m 0)) = true ↔ n = m := by
  rw [equalsInt, if_pos rfl, beq_iff_eq, Int.natCast_inj]
  exact eq_comm

/-! ## Canonical lists -/

/-- An address that is taken stands for a public one in canonical form. -/
theorem IpAddress.unmapped_canonical {a : IpAddress} (h : a.isPublic = true) :
    IsCanonical a.unmapped ∧ a.unmapped.isPublic = true := by
  cases a with
  | v4 a => exact ⟨trivial, h⟩
  | v6 a scopeId =>
      cases scopeId with
      | some scopeId => cases h
      | none =>
          rw [IpAddress.unmapped]
          split
          · rename_i hmapped
            rw [IpAddress.isPublic_mapped hmapped] at h
            exact ⟨trivial, h⟩
          · rename_i hmapped
            exact ⟨⟨rfl, Bool.eq_false_iff.2 hmapped⟩, h⟩

section

variable [Ipv6]

/-- Public addresses as they are printed, each once. -/
structure CanonicalAddresses (addresses : List (List Char)) : Prop where
  nodup : addresses.Nodup
  printed : ∀ t ∈ addresses, ∃ a : IpAddress, IsCanonical a ∧ a.isPublic = true ∧ ipText a = t

/-- What one turn adds. -/
theorem addAddress_ok {normalized addresses : List (List Char)} {value : List Char}
    (h : addAddress normalized value = .ok addresses) :
    ∃ a : IpAddress, IsCanonical a ∧ a.isPublic = true ∧ ipText a ∉ normalized ∧
      addresses = normalized ++ [ipText a] := by
  rw [addAddress] at h
  simp only [isPublicText_eq] at h
  cases hread : ipAddress (strip value) with
  | none => simp [hread] at h
  | some parsed =>
      simp only [hread, Option.any_some] at h
      split at h
      · cases h
      rename_i hpublic
      split at h
      · cases h
      rename_i hnew
      obtain ⟨hcanonical, hunmapped⟩ := IpAddress.unmapped_canonical (a := parsed) (by simpa using hpublic)
      exact ⟨parsed.unmapped, hcanonical, hunmapped, by simpa using hnew, (Except.ok.inj h).symm⟩

/-- An address in canonical form is added as it is. -/
theorem addAddress_ipText {normalized : List (List Char)} {a : IpAddress} (h : IsCanonical a)
    (hpublic : a.isPublic = true) (hnew : ipText a ∉ normalized) :
    addAddress normalized (ipText a) = .ok (normalized ++ [ipText a]) := by
  have hsame : a.unmapped = a := by
    cases a with
    | v4 a => rfl
    | v6 a scopeId => rw [IpAddress.unmapped, if_neg (Bool.eq_false_iff.1 h.2)]
  have hcontains : normalized.contains (ipText a) = false := by simpa using hnew
  simp only [addAddress, strip_ipText h, isPublicText_eq, ipAddress_ipText h, Option.any_some, hpublic,
    Bool.not_true, Bool.false_eq_true, if_false, hsame, hcontains]

theorem CanonicalAddresses.concat {addresses : List (List Char)} (h : CanonicalAddresses addresses)
    {a : IpAddress} (ha : IsCanonical a) (hpublic : a.isPublic = true) (hnew : ipText a ∉ addresses) :
    CanonicalAddresses (addresses ++ [ipText a]) := by
  refine ⟨?_, fun t ht => ?_⟩
  · rw [← List.concat_eq_append]
    exact List.Nodup.concat hnew h.nodup
  · rcases List.mem_append.1 ht with ht | ht
    · exact h.printed t ht
    · exact ⟨a, ha, hpublic, (List.mem_singleton.1 ht).symm⟩

/-- What `normalize_addresses` returns is canonical. -/
theorem normalizeAddresses_canonical {values addresses : List (List Char)}
    (h : normalizeAddresses values = .ok addresses) : CanonicalAddresses addresses := by
  have hrun : ∀ (values start : List (List Char)), CanonicalAddresses start →
      values.foldlM addAddress start = .ok addresses → CanonicalAddresses addresses := by
    intro values
    induction values with
    | nil =>
        intro start hstart hok
        exact Except.ok.inj hok ▸ hstart
    | cons value values ih =>
        intro start hstart hok
        rw [List.foldlM_cons] at hok
        cases hstep : addAddress start value with
        | error e => simp [hstep, bind, Except.bind] at hok
        | ok next =>
            obtain ⟨a, ha, hpublic, hnew, rfl⟩ := addAddress_ok hstep
            rw [hstep] at hok
            exact ih _ (hstart.concat ha hpublic hnew) hok
  exact hrun values [] ⟨List.nodup_nil, by simp⟩ h

/-- A canonical list is its own normal form. -/
theorem CanonicalAddresses.normalize {addresses : List (List Char)} (h : CanonicalAddresses addresses) :
    normalizeAddresses addresses = .ok addresses := by
  have hrun : ∀ rest before : List (List Char), CanonicalAddresses (before ++ rest) →
      rest.foldlM addAddress before = .ok (before ++ rest) := by
    intro rest
    induction rest with
    | nil =>
        intro before _
        rw [List.append_nil]
        rfl
    | cons t rest ih =>
        intro before hboth
        obtain ⟨a, ha, hpublic, rfl⟩ := hboth.printed t (by simp)
        have hnew : ipText a ∉ before := by
          intro hmem
          exact (List.nodup_append.1 hboth.nodup).2.2 _ hmem _ List.mem_cons_self rfl
        have hsplit : before ++ ipText a :: rest = before ++ [ipText a] ++ rest := by simp
        rw [List.foldlM_cons, addAddress_ipText ha hpublic hnew]
        rw [hsplit] at hboth ⊢
        exact ih _ hboth
  exact hrun addresses [] h

/-! ## Through the file -/

/-- A canonical list comes back from the file. -/
theorem CanonicalAddresses.stored {config : SavedConfig} (h : CanonicalAddresses config.selfAddresses) :
    storedAddresses config.members = .ok config.selfAddresses := by
  have hstrings : ∀ addresses : List (List Char),
      strings (addresses.map fun t => .str (t.flatMap utf16)) =
        some (addresses.map fun t => t.flatMap utf16) := by
    intro addresses
    induction addresses with
    | nil => rfl
    | cons t addresses ih =>
        rw [strings] at ih
        rw [strings, List.map_cons, List.mapM_cons, ih]
        rfl
  have hadd : ∀ (normalized : List (List Char)) (t : List Char),
      addStored normalized (t.flatMap utf16) = addAddress normalized t := by
    intro normalized t
    rw [addStored, fromUtf16_utf16]
  rw [storedAddresses, config.get_members.2.2.2]
  simp only [hstrings, List.foldlM_map, hadd]
  exact h.normalize

/-- The file belongs to the installation with its kind, host and port. -/
theorem savedAddresses_data {config : SavedConfig} (hbound : config.port ≤ 65535)
    (h : CanonicalAddresses config.selfAddresses) {settings : Settings}
    {saved : List (List Char)} (hsaved : savedAddresses settings (.file config.data) = .ok saved) :
    settings.kind = config.kind ∧ settings.host = config.host ∧ settings.port = config.port ∧
      saved = config.selfAddresses := by
  obtain ⟨hkind, hhost, hport, -⟩ := config.get_members
  rw [savedAddresses, SavedConfig.loads_data hbound] at hsaved
  simp only [hkind, hhost, hport] at hsaved
  split at hsaved
  · rename_i hidentity
    rw [Bool.and_eq_true, Bool.and_eq_true, equalsText_utf16, equalsText_utf16, equalsInt_nat]
      at hidentity
    rw [h.stored] at hsaved
    exact ⟨Kind.text_inj hidentity.1.1, hidentity.1.2, hidentity.2, (Except.ok.inj hsaved).symm⟩
  · cases hsaved

/-- The installation that saved the file reads its addresses. -/
theorem savedAddresses_same {config : SavedConfig} (hbound : config.port ≤ 65535)
    (h : CanonicalAddresses config.selfAddresses) {settings : Settings}
    (hkind : settings.kind = config.kind) (hhost : settings.host = config.host)
    (hport : settings.port = config.port) :
    savedAddresses settings (.file config.data) = .ok config.selfAddresses := by
  obtain ⟨hkind', hhost', hport', -⟩ := config.get_members
  rw [savedAddresses, SavedConfig.loads_data hbound]
  simp only [hkind', hhost', hport', hkind, hhost, hport]
  rw [if_pos, h.stored]
  simp only [equalsText_utf16.2, equalsInt_nat.2, Bool.and_self]

/-- What a call makes of settings that it takes. -/
structure SavedConfig.MadeOf (config : SavedConfig) (settings : Settings) (path : ConfigPath) :
    Prop where
  kind : config.kind = settings.kind
  host : config.host = settings.host
  port : config.port = settings.port
  addresses : ∃ saved, savedAddresses settings path = .ok saved ∧
    config.selfAddresses = settings.selfAddresses.getD saved

/-- A call that fails leaves the path as it was, unless only the `fsync` of the directory
has failed, and one that succeeds has written what it returns. -/
theorem ensureConfig_cases (settings : Settings) (disk : Disk) (path : ConfigPath) :
    (∃ e, ensureConfig settings disk path = (.error e, path)) ∨
      ∃ config : SavedConfig, config.MadeOf settings path ∧
        ensureConfig settings .works path = (.ok config, .file config.data) ∧
        (ensureConfig settings disk path = (.ok config, .file config.data) ∨
          disk = .unsynced ∧ path ≠ .file config.data ∧
            ensureConfig settings disk path = (.error .os, .file config.data)) := by
  by_cases hread : disk = .unread
  · refine Or.inl ⟨.os, ?_⟩
    rw [ensureConfig, if_pos hread]
  cases hsaved : savedAddresses settings path with
  | error e =>
      refine Or.inl ⟨e, ?_⟩
      rw [ensureConfig, if_neg hread, hsaved]
  | ok saved =>
      set config : SavedConfig := ⟨settings.kind, settings.host, settings.port,
        settings.selfAddresses.getD saved⟩ with hconfig
      have hmade : config.MadeOf settings path := ⟨rfl, rfl, rfl, saved, hsaved, rfl⟩
      by_cases hsame : path = .file config.data
      · -- the bytes are there, and nothing is written
        have hkept : ∀ disk ≠ Disk.unread,
            ensureConfig settings disk path = (.ok config, .file config.data) := by
          intro disk hdisk
          simp only [ensureConfig, if_neg hdisk, hsaved]
          rw [if_pos hsame]
          exact congrArg _ hsame
        exact Or.inr ⟨config, hmade, hkept .works nofun, Or.inl (hkept disk hread)⟩
      · have hwrites : ∀ disk ≠ Disk.unread, ensureConfig settings disk path =
            match disk.atomicWrite path (.file config.data) with
            | (.error e, path) => (.error e, path)
            | (.ok (), path) => (.ok config, path) := by
          intro disk hdisk
          simp only [ensureConfig, if_neg hdisk, hsaved]
          rw [if_neg hsame]
        have hworks := hwrites .works nofun
        cases disk with
        | works => exact Or.inr ⟨config, hmade, hworks, Or.inl hworks⟩
        | unread => exact absurd rfl hread
        | unwritten => exact Or.inl ⟨.os, hwrites .unwritten nofun⟩
        -- the new file stays when the directory is not synced
        | unsynced => exact Or.inr ⟨config, hmade, hworks, Or.inr ⟨rfl, hsame, hwrites .unsynced nofun⟩⟩

end

/-! ## Over all calls -/

section

variable [Ipv6] [Tables]

/-- The extra addresses that were accepted are canonical. -/
theorem Settings.Accepted.canonical {environment : Environment} {settings : Settings}
    (h : settings.Accepted environment) {addresses : List (List Char)}
    (hset : settings.selfAddresses = some addresses) : CanonicalAddresses addresses := by
  have haddresses := h.addresses
  rw [settingsAddresses] at haddresses
  split at haddresses
  · cases haddresses
  split at haddresses
  · cases haddresses
  split at haddresses
  · rw [hset] at haddresses
    cases haddresses
    exact ⟨List.nodup_nil, by simp⟩
  split at haddresses
  · rw [hset] at haddresses
    cases hnormal : normalizeAddresses
        ((environment.setting "SHBVPN_SELF_ADDRESSES" "").splitOn ',') with
    | error e =>
        rw [hnormal] at haddresses
        cases haddresses
    | ok normal =>
        rw [hnormal] at haddresses
        cases haddresses
        exact normalizeAddresses_canonical hnormal
  · rw [hset] at haddresses
    cases haddresses

/-- What the file of a volume has. -/
structure Volume.Saved (v : Volume) (config : SavedConfig) : Prop where
  path : v.path = .file config.data
  first : ∀ settings ∈ v.accepted.getLast?, config.kind = settings.kind ∧
    config.host = settings.host ∧ config.port = settings.port
  latest : config.selfAddresses = (v.accepted.findSome? Settings.selfAddresses).getD []
  canonical : CanonicalAddresses config.selfAddresses
  bound : config.port ≤ 65535

/-- No call has taken effect and nothing is saved, or one has and its identity is. -/
inductive Volume.Coherent (v : Volume) : Prop where
  | fresh (hpath : v.path = .missing) (haccepted : v.accepted = [])
  | saved (config : SavedConfig) (hne : v.accepted ≠ []) (hsaved : v.Saved config)

/-- What one call can do: fail and change nothing, or save its settings. Then it succeeds,
or it fails since the directory was not synced. -/
theorem Volume.call_cases (v : Volume) (environment : Environment) (disk : Disk) :
    (∃ e, v.call environment disk = (.error e, v)) ∨
      ∃ settings config, validateSettings environment = .ok settings ∧
        config.MadeOf settings v.path ∧
        v.call environment .works = (.ok config, ⟨.file config.data, settings :: v.accepted⟩) ∧
        (v.call environment disk = v.call environment .works ∨
          disk = .unsynced ∧ v.path ≠ .file config.data ∧ v.call environment disk =
            (.error .os, ⟨.file config.data, settings :: v.accepted⟩)) := by
  cases hvalidate : validateSettings environment with
  | error e =>
      refine Or.inl ⟨e, ?_⟩
      rw [Volume.call, hvalidate]
  | ok settings =>
      rcases ensureConfig_cases settings disk v.path with ⟨e, hensure⟩ | ⟨config, hmade, hworks, hensure⟩
      · refine Or.inl ⟨e, ?_⟩
        simp only [Volume.call, hvalidate, hensure, if_true]
      · have hcall : v.call environment .works =
            (.ok config, ⟨.file config.data, settings :: v.accepted⟩) := by
          simp only [Volume.call, hvalidate, hworks]
        refine Or.inr ⟨settings, config, rfl, hmade, hcall, ?_⟩
        rw [hcall]
        rcases hensure with hensure | ⟨hdisk, hdiffers, hensure⟩
        · left
          simp only [Volume.call, hvalidate, hensure]
        · right
          refine ⟨hdisk, hdiffers, ?_⟩
          simp only [Volume.call, hvalidate, hensure, if_neg (Ne.symm hdiffers)]

/-- The first settings stay the first, and the list is that of the latest to have one. -/
theorem Volume.Coherent.accept {v : Volume} (h : v.Coherent) {environment : Environment}
    {settings : Settings} {config : SavedConfig} (hvalidate : validateSettings environment = .ok settings)
    (hmade : config.MadeOf settings v.path) :
    Volume.Coherent ⟨.file config.data, settings :: v.accepted⟩ := by
  rcases hmade with ⟨hkind, hhost, hport, saved, hsaved, haddresses⟩
  have hchoice : ∀ old : List (List Char), CanonicalAddresses old →
      CanonicalAddresses (settings.selfAddresses.getD old) := by
    intro old hold
    cases hchange : settings.selfAddresses with
    | none => exact hold
    | some addresses => exact (validateSettings_ok hvalidate).canonical hchange
  have hbound : config.port ≤ 65535 := by
    rw [hport]
    exact (settingsPort_range (validateSettings_ok hvalidate).port).2.1
  refine .saved config (by simp) ?_
  cases h with
  | fresh hpath haccepted =>
      rw [hpath, savedAddresses] at hsaved
      obtain rfl := Except.ok.inj hsaved
      refine ⟨rfl, fun s hs => ?_, ?_, ?_, hbound⟩
      · rw [haccepted] at hs
        obtain rfl := Option.some.inj hs
        exact ⟨hkind, hhost, hport⟩
      · simp only [haddresses, haccepted, List.findSome?_cons, List.findSome?_nil]
        cases settings.selfAddresses <;> rfl
      · rw [haddresses]
        exact hchoice [] ⟨List.nodup_nil, by simp⟩
  | saved old hne hold =>
      rw [hold.path] at hsaved
      obtain ⟨hkind', hhost', hport', rfl⟩ := savedAddresses_data hold.bound hold.canonical hsaved
      refine ⟨rfl, fun s hs => ?_, ?_, ?_, hbound⟩
      · -- the identity was compared with the one in the file
        rw [List.getLast?_cons_of_ne_nil hne] at hs
        obtain ⟨hk, hh, hp⟩ := hold.first s hs
        rw [hkind, hhost, hport, hkind', hhost', hport']
        exact ⟨hk, hh, hp⟩
      · rw [haddresses, hold.latest, List.findSome?_cons]
        cases settings.selfAddresses <;> rfl
      · rw [haddresses]
        exact hchoice _ hold.canonical

/-- The step. -/
theorem Volume.Coherent.call {v : Volume} (h : v.Coherent) (environment : Environment) (disk : Disk) :
    (v.call environment disk).2.Coherent := by
  rcases v.call_cases environment disk with ⟨e, hcall⟩ | ⟨settings, config, hvalidate, hmade, hworks,
    hcall | ⟨-, -, hcall⟩⟩
  · rw [hcall]
    exact h
  · rw [hcall, hworks]
    exact h.accept hvalidate hmade
  · rw [hcall]
    exact h.accept hvalidate hmade

theorem Volume.after_coherent (calls : List (Environment × Disk)) : (Volume.after calls).Coherent := by
  have hrun : ∀ (calls : List (Environment × Disk)) (v : Volume), v.Coherent →
      (calls.foldl (fun v call => (v.call call.1 call.2).2) v).Coherent := by
    intro calls
    induction calls with
    | nil => exact fun v h => h
    | cons call calls ih => exact fun v h => ih _ (h.call call.1 call.2)
  exact hrun calls _ (.fresh rfl rfl)

/-- The identity is that of the first call that took effect, the addresses are those of the
latest of them that set or cleared them, in canonical form. A call takes effect if it
succeeds; one that fails changes nothing, unless all that failed was the `fsync` of the
directory behind `os.replace`: then the volume is as if it had succeeded. -/
theorem Volume.config_persists (calls : List (Environment × Disk)) :
    let v := Volume.after calls
    (v.accepted = [] → v.path = .missing) ∧
      (∀ first ∈ v.accepted.getLast?, ∃ config : SavedConfig, v.path = .file config.data ∧
        config.kind = first.kind ∧ config.host = first.host ∧ config.port = first.port ∧
        config.selfAddresses = (v.accepted.findSome? Settings.selfAddresses).getD [] ∧
        config.selfAddresses.Nodup ∧
        (∀ t ∈ config.selfAddresses, ∃ a, IsCanonical a ∧ ipAddress t = some a ∧ ipText a = t) ∧
        normalizeAddresses config.selfAddresses = .ok config.selfAddresses ∧
        savedAddresses first v.path = .ok config.selfAddresses) ∧
      ∀ environment disk, (∃ e, v.call environment disk = (.error e, v)) ∨
        ∃ settings config, validateSettings environment = .ok settings ∧
          v.call environment .works = (.ok config, ⟨.file config.data, settings :: v.accepted⟩) ∧
          (v.call environment disk = v.call environment .works ∨
            disk = .unsynced ∧ v.path ≠ .file config.data ∧ v.call environment disk =
              (.error .os, ⟨.file config.data, settings :: v.accepted⟩)) := by
  intro v
  have hcoherent : v.Coherent := Volume.after_coherent calls
  refine ⟨fun hnone => ?_, fun first hfirst => ?_, fun environment disk => ?_⟩
  · cases hcoherent with
    | fresh hpath _ => exact hpath
    | saved _ hne _ => exact absurd hnone hne
  · cases hcoherent with
    | fresh _ haccepted =>
        rw [haccepted] at hfirst
        cases hfirst
    | saved config hne hsaved =>
        obtain ⟨hkind, hhost, hport⟩ := hsaved.first first hfirst
        have hcanonical := hsaved.canonical
        refine ⟨config, hsaved.path, hkind, hhost, hport, hsaved.latest, hcanonical.nodup, ?_,
          hcanonical.normalize, ?_⟩
        · intro t ht
          obtain ⟨a, ha, -, rfl⟩ := hcanonical.printed t ht
          exact ⟨a, ha, ipAddress_ipText ha, rfl⟩
        · rw [hsaved.path]
          exact savedAddresses_same hsaved.bound hcanonical hkind.symm hhost.symm hport.symm
  · rcases v.call_cases environment disk with herror | ⟨settings, config, hvalidate, -, hworks, hcall⟩
    · exact Or.inl herror
    · exact Or.inr ⟨settings, config, hvalidate, hworks, hcall⟩

end

section

attribute [local instance] Ipv6.sample Tables.ascii

example : (Volume.after [(.domain "proxy.test", .works), (.domain "other.test", .works)]).accepted.map
    Settings.host = ["proxy.test".toList] := by decide +kernel

/-- The same domain, with an address of its own. -/
def Environment.withAddress : Environment := fun name =>
  if name = "SHBVPN_SELF_ADDRESSES" then some "8.8.4.4".toList
  else Environment.domain "proxy.test" name

/-- The call that is to save the address fails behind `os.replace`. -/
theorem Volume.config_persists_fails :
    ¬ ∀ (calls : List (Environment × Disk)) (environment : Environment) (disk : Disk),
      ((Volume.after calls).call environment disk).1.isOk = false →
        ((Volume.after calls).call environment disk).2.path = (Volume.after calls).path := by
  intro hall
  have hsame := hall [(.domain "proxy.test", .works)] .withAddress .unsynced (by decide +kernel)
  revert hsame
  decide +kernel

end

end BrowserVpn
