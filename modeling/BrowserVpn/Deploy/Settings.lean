import BrowserVpn.Core.Connection
import BrowserVpn.Installer.Ipaddress

/-!
# Deploy.Settings — what the manager is configured with

`validate_settings` and `normalize_addresses`. The host that they let pass ends up in
the connection key, where the extension checks it again with a grammar of its own. The
two differ on names of digits and dots alone.
-/

namespace BrowserVpn

open Data Python

namespace Python

/-- What a Python string takes from the tables of Unicode. -/
class Tables where
  lower : List Char → List Char
  decimalDigit : Char → Option (Fin 10)

/-- The tables for ASCII. -/
@[reducible] def Tables.ascii : Tables where
  lower s := s.map Char.toLower
  decimalDigit c := if isAsciiDigit c then some (Fin.ofNat 10 (c.toNat - 48)) else none

variable [Tables]

/-- `str.isdecimal`. -/
def isDecimal (s : List Char) : Bool := !s.isEmpty && s.all fun c => (Tables.decimalDigit c).isSome

/-- `int` of a text that is decimal, `none` for the `ValueError` of a long one. -/
def int (s : List Char) : Option Nat :=
  if s.length > 4300 then none
  else some (s.foldl (fun n c => n * 10 + ((Tables.decimalDigit c).map Fin.val).getD 0) 0)

end Python

/-- A `ManagerError`, a `ValueError` that is not made one, or an `OSError`. -/
inductive SettingsError where
  | manager (message : String)
  | value
  | os
deriving DecidableEq

inductive Kind where
  | ip
  | domain
deriving DecidableEq

/-- What `validate_settings` returns. -/
structure Settings where
  kind : Kind
  host : List Char
  port : Nat
  email : List Char
  selfAddresses : Option (List (List Char))

/-- `os.environ`. -/
abbrev Environment := String → Option (List Char)

/-- `environment.get(name, default).strip()`. -/
def Environment.setting (environment : Environment) (name default : String) : List Char :=
  strip ((environment name).getD default.toList)

/-- `[a-z0-9-]` -/
def isLabelChar (c : Char) : Bool := (97 ≤ c.toNat && c.toNat ≤ 122) || isAsciiDigit c || c == '-'

/-- `[a-z0-9](?:[a-z0-9-]{0,61}[a-z0-9])?` -/
def isDnsLabel (label : List Char) : Bool :=
  0 < label.length && label.length ≤ 63 && label.all isLabelChar && label.head?.any (· != '-') &&
    label.getLast?.any (· != '-')

/-- `[^\s@]+@[^\s@]+\.[^\s@]+` -/
def isEmail (email : List Char) : Bool :=
  let plain (s : List Char) := !s.isEmpty && s.all fun c => !Python.isSpace c && c != '@'
  match splitFirst '@' email with
  | none => false
  | some (user, domain) => plain user && plain domain && domain.tail.dropLast.contains '.'

/-- The address that an IPv4-mapped one stands for. -/
def IpAddress.unmapped : IpAddress → IpAddress
  | .v4 a => .v4 a
  | .v6 a scopeId => if mappedIPv6.contains a then .v4 (embeddedIPv4 a) else .v6 a scopeId

section

variable [Ipv6]

/-- One turn of the loop of `normalize_addresses`. -/
def addAddress (normalized : List (List Char)) (value : List Char) :
    Except SettingsError (List (List Char)) :=
  let address := strip value
  if !isPublicText address then
    .error (.manager "Every SHBVPN_SELF_ADDRESSES entry must be a public IP")
  else match ipAddress address with
    | none => .error .value
    | some parsed =>
        let canonical := ipText parsed.unmapped
        if normalized.contains canonical then
          .error (.manager "SHBVPN_SELF_ADDRESSES contains a duplicate IP")
        else .ok (normalized ++ [canonical])

def normalizeAddresses (values : List (List Char)) : Except SettingsError (List (List Char)) :=
  values.foldlM addAddress []

/-! ## validate_settings -/

def settingsKind (text : List Char) : Except SettingsError Kind :=
  if text = "ip".toList then .ok .ip
  else if text = "domain".toList then .ok .domain
  else .error (.manager "SHBVPN_KIND must be ip or domain")

/-- The host of an installation of kind `ip`. -/
def ipHost (host : List Char) : Except SettingsError (List Char) :=
  match ipv4Address host with
  | none => .error (.manager "SHBVPN_HOST must be a public IPv4 address for kind=ip")
  | some address =>
      if !isPublicText host then
        .error (.manager "SHBVPN_HOST must be a public IPv4 address for kind=ip")
      else .ok (ipv4Text address)

/-- The host of an installation of kind `domain`. -/
def domainHost (host : List Char) : Except SettingsError (List Char) :=
  if (ipAddress host).isSome then .error (.manager "Use kind=ip for an IP address")
  else if host.length > 253 || !host.contains '.' || (host.splitOn '.').any fun l => !isDnsLabel l then
    .error (.manager "SHBVPN_HOST must be a valid DNS hostname")
  else .ok host

def settingsHost : Kind → List Char → Except SettingsError (List Char)
  | .ip => ipHost
  | .domain => domainHost

variable [Tables]

/-- The checks of the port, and its value. -/
def settingsPort (text : List Char) : Except SettingsError Nat :=
  if !isDecimal text then .error (.manager "SHBVPN_PORT must be 1..65535 except 80")
  else match int text with
    | none => .error .value
    | some port =>
        if port < 1 || 65535 < port || port = 80 then
          .error (.manager "SHBVPN_PORT must be 1..65535 except 80")
        else .ok port

/-- The update of the extra addresses, `none` for no change. -/
def settingsAddresses (clearText rawAddresses : List Char) :
    Except SettingsError (Option (List (List Char))) :=
  if clearText ≠ "0".toList && clearText ≠ "1".toList then
    .error (.manager "SHBVPN_CLEAR_SELF_ADDRESSES must be 0 or 1")
  else if clearText = "1".toList && rawAddresses ≠ [] then
    .error (.manager "Cannot set and clear extra self addresses together")
  else if clearText = "1".toList then .ok (some [])
  else if rawAddresses ≠ [] then (normalizeAddresses (rawAddresses.splitOn ',')).map some
  else .ok none

/-- The kind that is set, as a text. -/
def Environment.kindText (environment : Environment) : List Char :=
  environment.setting "SHBVPN_KIND" ""

/-- The host that is set, in lower case. -/
def Environment.hostText (environment : Environment) : List Char :=
  Tables.lower (environment.setting "SHBVPN_HOST" "")

def validateSettings (environment : Environment) : Except SettingsError Settings := do
  let kind ← settingsKind environment.kindText
  let port ← settingsPort (environment.setting "SHBVPN_PORT" "443")
  let host ← settingsHost kind environment.hostText
  let email := environment.setting "SHBVPN_EMAIL" ""
  if email ≠ [] && (email.length > 254 || !isEmail email) then
    throw (.manager "SHBVPN_EMAIL is invalid")
  let selfAddresses ← settingsAddresses (environment.setting "SHBVPN_CLEAR_SELF_ADDRESSES" "0")
    (environment.setting "SHBVPN_SELF_ADDRESSES" "")
  return { kind, host, port, email, selfAddresses }

/-- What is known of settings that were accepted. -/
structure Settings.Accepted (environment : Environment) (settings : Settings) : Prop where
  kind : settingsKind environment.kindText = .ok settings.kind
  port : settingsPort (environment.setting "SHBVPN_PORT" "443") = .ok settings.port
  host : settingsHost settings.kind environment.hostText = .ok settings.host
  addresses : settingsAddresses (environment.setting "SHBVPN_CLEAR_SELF_ADDRESSES" "0")
    (environment.setting "SHBVPN_SELF_ADDRESSES" "") = .ok settings.selfAddresses

theorem validateSettings_ok {environment : Environment} {settings : Settings}
    (h : validateSettings environment = .ok settings) : settings.Accepted environment := by
  rw [validateSettings] at h
  simp only [bind, Except.bind, pure, Except.pure, throw, throwThe, MonadExceptOf.throw] at h
  split at h
  · cases h
  rename_i kind hkind
  split at h
  · cases h
  rename_i port hport
  split at h
  · cases h
  rename_i host hhost
  split at h
  · cases h
  split at h
  · cases h
  rename_i addresses haddresses
  obtain rfl := Except.ok.inj h
  exact ⟨hkind, hport, hhost, haddresses⟩

end

/-! ## In the extension -/

/-- Text of one unit for each character. -/
theorem utf16_ascii {s : List Char} (h : ∀ c ∈ s, c.toNat < 128) : s.flatMap utf16 = s.map unit := by
  induction s with
  | nil => rfl
  | cons c s ih =>
      have hc := h c (by simp)
      rw [List.flatMap_cons, ih fun d hd => h d (by simp [hd]), utf16, if_pos (by omega)]
      rfl

theorem toNat_unit {c : Char} (h : c.toNat < 128) : (unit c).toNat = c.toNat := by
  show (UInt16.ofNat c.toNat).toNat = c.toNat
  rw [UInt16.toNat_ofNat']
  omega

theorem unit_inj {c d : Char} (hc : c.toNat < 128) (hd : d.toNat < 128) (h : unit c = unit d) :
    c = d := by
  have hnat := congrArg UInt16.toNat h
  rw [toNat_unit hc, toNat_unit hd] at hnat
  rw [← Char.ofNat_toNat c, ← Char.ofNat_toNat d, hnat]

theorem map_unit_inj {s t : List Char} (hs : ∀ c ∈ s, c.toNat < 128) (ht : ∀ c ∈ t, c.toNat < 128)
    (h : s.map unit = t.map unit) : s = t := by
  induction s generalizing t with
  | nil => simpa [eq_comm] using h
  | cons c s ih =>
      cases t with
      | nil => simp at h
      | cons d t =>
          obtain ⟨hcd, hst⟩ := List.cons.inj h
          rw [unit_inj (hs c (by simp)) (ht d (by simp)) hcd,
            ih (fun e he => hs e (by simp [he])) (fun e he => ht e (by simp [he])) hst]

theorem splitAt_map_unit {s : List Char} (h : ∀ c ∈ s, c.toNat < 128) :
    splitAt (unit '.') (s.map unit) = (s.splitOn '.').map (List.map unit) :=
  splitOn_map unit fun c hc heq => unit_inj (h c hc) (by decide) heq

/-- The characters of the hosts that the manager takes. -/
def isHostChar (c : Char) : Bool := isLabelChar c || c == '.'

theorem toNat_of_isHostChar {c : Char} (h : isHostChar c = true) : c.toNat < 128 := by
  simp only [isHostChar, isLabelChar, isAsciiDigit, Bool.or_eq_true, Bool.and_eq_true,
    decide_eq_true_eq, beq_iff_eq] at h
  rcases h with ((h | h) | rfl) | rfl
  · omega
  · omega
  · decide
  · decide

theorem isDigit_unit {c : Char} (h : c.toNat < 128) : isDigit (unit c) = isAsciiDigit c := by
  rw [isDigit, toNat_unit h, isAsciiDigit]

theorem isHostUnit_unit {c : Char} (h : isHostChar c = true) : isHostUnit (unit c) = true := by
  have hascii := toNat_of_isHostChar h
  have hdigit := isDigit_unit hascii
  simp only [isHostUnit, isLabelUnit, isLower, toNat_unit hascii, hdigit]
  simp only [isHostChar, isLabelChar, Bool.or_eq_true, beq_iff_eq] at h
  rcases h with ((h | h) | rfl) | rfl
  · simp [h]
  · simp [h]
  · decide
  · decide

/-- A name of digits and dots alone. -/
def isNumeric (host : List Char) : Bool := host.all fun c => isAsciiDigit c || c == '.'

/-- An octet that is printed is one for the extension. -/
theorem octet_toDigits {n : Nat} (h : n < 256) :
    isOctet ((Nat.toDigits 10 n).map unit) = true ∧ 0 < (Nat.toDigits 10 n).length ∧
      (Nat.toDigits 10 n).length ≤ 3 ∧ decimal n = (Nat.toDigits 10 n).map unit := by
  have hall : ∀ n < 256, isOctet ((Nat.toDigits 10 n).map unit) = true ∧
      0 < (Nat.toDigits 10 n).length ∧ (Nat.toDigits 10 n).length ≤ 3 ∧
        decimal n = (Nat.toDigits 10 n).map unit := by decide +kernel
  exact hall n h

theorem toNat_of_isAsciiDigit {c : Char} (h : isAsciiDigit c = true) : c.toNat < 128 := by
  simp only [isAsciiDigit, Bool.and_eq_true, decide_eq_true_eq] at h
  omega

/-- What the extension takes for an octet is one for `ipaddress`. -/
theorem parseOctet_of_isOctet {t : List Char} (ht : ∀ c ∈ t, isAsciiDigit c = true)
    (h : isOctet (t.map unit) = true) : (parseOctet t).isSome = true := by
  rw [isOctet, Bool.and_eq_true, decide_eq_true_eq, beq_iff_eq] at h
  obtain ⟨hle, hspelling⟩ := h
  have hn : ofDecimal (t.map unit) < 256 := by omega
  obtain ⟨hoctet, -, hdigits⟩ := parseOctet_toDigits hn
  rw [(octet_toDigits hn).2.2.2] at hspelling
  have heq : Nat.toDigits 10 (ofDecimal (t.map unit)) = t :=
    map_unit_inj (fun c hc => toNat_of_isAsciiDigit (hdigits c hc))
      (fun c hc => toNat_of_isAsciiDigit (ht c hc)) hspelling
  rw [heq] at hoctet
  rw [hoctet]
  rfl

/-- The parts of a dotted quad are digits. -/
theorem isDottedQuad_map_unit {host : List Char} (h : ∀ c ∈ host, c.toNat < 128) :
    isDottedQuad (host.map unit) = true ↔
      (host.splitOn '.').length = 4 ∧
        ∀ t ∈ host.splitOn '.', t ≠ [] ∧ ∀ c ∈ t, isAsciiDigit c = true := by
  have hascii : ∀ t ∈ host.splitOn '.', ∀ c ∈ t, c.toNat < 128 := by
    intro t ht c hc
    refine h c ?_
    rw [← (List.intercalate_splitOn '.' : ['.'].intercalate (host.splitOn '.') = host)]
    exact mem_intercalate_of_mem ht hc
  rw [isDottedQuad, splitAt_map_unit h]
  simp only [List.length_map, List.all_map, Bool.and_eq_true, beq_iff_eq, List.all_eq_true,
    Function.comp_apply, Bool.not_eq_true', List.isEmpty_eq_false_iff, ne_eq, List.map_eq_nil_iff]
  refine and_congr_right fun _ => forall_congr' fun t => forall_congr' fun ht => ?_
  refine and_congr_right fun _ => forall_congr' fun c => forall_congr' fun hc => ?_
  rw [isDigit_unit (hascii t ht c hc)]

/-- A name of the extension's addresses is one of `ipaddress`'s. -/
theorem ipv4Address_of_octets {host : List Char} (h : ∀ c ∈ host, isHostChar c = true)
    (hquad : isDottedQuad (host.map unit) = true)
    (hoctets : (splitAt (unit '.') (host.map unit)).all isOctet = true) :
    (ipv4Address host).isSome = true := by
  have hascii : ∀ c ∈ host, c.toNat < 128 := fun c hc => toNat_of_isHostChar (h c hc)
  have hslash : host.contains '/' = false := by
    rw [Bool.eq_false_iff]
    intro hmem
    exact absurd (h '/' (List.contains_iff_mem.1 hmem)) (by decide)
  obtain ⟨hlength, hparts⟩ := (isDottedQuad_map_unit hascii).1 hquad
  rw [splitAt_map_unit hascii, List.all_map, List.all_eq_true] at hoctets
  have hparse : ∀ t ∈ host.splitOn '.', ∃ n, parseOctet t = some n := fun t ht =>
    Option.isSome_iff_exists.1 (parseOctet_of_isOctet (hparts t ht).2 (hoctets t ht))
  rw [ipv4Address, hslash]
  obtain ⟨a, b, c, d, hsplit⟩ := List.length_eq_four.1 hlength
  rw [hsplit] at hparse ⊢
  obtain ⟨w, hw⟩ := hparse a (by simp)
  obtain ⟨x, hx⟩ := hparse b (by simp)
  obtain ⟨y, hy⟩ := hparse c (by simp)
  obtain ⟨z, hz⟩ := hparse d (by simp)
  simp [hw, hx, hy, hz]

/-- The canonical text of an address passes as a host. -/
theorem isHostValue_ipv4Text (a : BitVec 32) : isHostValue ((ipv4Text a).map unit) = true := by
  have hascii : ∀ c ∈ ipv4Text a, c.toNat < 128 := by
    intro c hc
    rcases mem_ipv4Text hc with rfl | hdigit
    · decide
    · exact toNat_of_isAsciiDigit hdigit
  have hoctet := fun n hn => octet_toDigits (octets_lt a n hn)
  have hquad : isDottedQuad ((ipv4Text a).map unit) = true := by
    rw [isDottedQuad_map_unit hascii, splitOn_ipv4Text]
    refine ⟨rfl, fun t ht => ?_⟩
    obtain ⟨n, hn, rfl⟩ := List.mem_map.1 ht
    exact ⟨List.ne_nil_of_length_pos (hoctet n hn).2.1,
      (parseOctet_toDigits (octets_lt a n hn)).2.2⟩
  have hoctets : (splitAt (unit '.') ((ipv4Text a).map unit)).all isOctet = true := by
    rw [splitAt_map_unit hascii, splitOn_ipv4Text, List.all_eq_true]
    intro p hp
    obtain ⟨t, ht, rfl⟩ := List.mem_map.1 hp
    obtain ⟨n, hn, rfl⟩ := List.mem_map.1 ht
    exact (hoctet n hn).1
  rw [isHostValue, if_pos hquad, hoctets]

theorem length_ipv4Text (a : BitVec 32) : 3 ≤ (ipv4Text a).length ∧ (ipv4Text a).length ≤ 253 := by
  have hlength := fun n hn => octet_toDigits (octets_lt a n hn)
  simp only [octets, List.forall_mem_cons] at hlength
  obtain ⟨⟨-, hw, hw', -⟩, ⟨-, hx, hx', -⟩, ⟨-, hy, hy', -⟩, ⟨-, hz, hz', -⟩, -⟩ := hlength
  simp only [ipv4Text, octets, List.map_cons, List.map_nil, List.intercalate_cons_cons,
    List.intercalate_singleton, List.length_append, List.length_singleton]
  omega

/-- A label of the manager is one of the extension. -/
theorem isLabel_map_unit {label : List Char} (h : isDnsLabel label = true) :
    isLabel (label.map unit) = true := by
  have hdash : ∀ c : Char, isLabelChar c = true → (unit c != unit '-') = (c != '-') := by
    intro c hc
    have hascii : c.toNat < 128 := toNat_of_isHostChar (by rw [isHostChar, hc]; rfl)
    rw [Bool.eq_iff_iff, bne_iff_ne, bne_iff_ne]
    exact not_congr ⟨fun heq => unit_inj hascii (by decide) heq, fun heq => by rw [heq]⟩
  simp only [isDnsLabel, Bool.and_eq_true, decide_eq_true_eq, List.all_eq_true] at h
  obtain ⟨⟨⟨⟨hpos, hmax⟩, hall⟩, hhead⟩, hlast⟩ := h
  have hunits : ∀ u ∈ label.map unit, isLabelUnit u = true := by
    intro u hu
    obtain ⟨c, hc, rfl⟩ := List.mem_map.1 hu
    have hchar := hall c hc
    have hhost := isHostUnit_unit (c := c) (by rw [isHostChar, hchar]; rfl)
    rw [isHostUnit, Bool.or_eq_true, beq_iff_eq] at hhost
    rcases hhost with hlabel | hdot
    · exact hlabel
    · have hc' := unit_inj (toNat_of_isHostChar (by rw [isHostChar, hchar]; rfl)) (by decide) hdot
      rw [hc'] at hchar
      exact absurd hchar (by decide)
  have hends : ∀ o : Option Char, (∀ c ∈ o, c ∈ label) → o.any (· != '-') = true →
      (o.map unit).any (· != unit '-') = true := by
    rintro (_ | c) hmem hany
    · cases hany
    · rw [Option.map_some, Option.any_some, hdash c (hall c (hmem c rfl))]
      exact hany
  simp only [isLabel, Bool.and_eq_true, decide_eq_true_eq, List.all_eq_true, List.length_map,
    List.head?_map, List.getLast?_map]
  exact ⟨⟨⟨⟨hpos, hmax⟩, hunits⟩, hends _ (fun c hc => List.mem_of_mem_head? hc) hhead⟩,
    hends _ (fun c hc => List.mem_of_getLast? hc) hlast⟩

/-- What `domainHost` lets pass. -/
structure IsDomain [Ipv6] (host : List Char) : Prop where
  address : ipAddress host = none
  length : host.length ≤ 253
  dot : '.' ∈ host
  labels : ∀ l ∈ host.splitOn '.', isDnsLabel l = true

theorem domainHost_ok [Ipv6] {host host' : List Char} (h : domainHost host = .ok host') :
    host' = host ∧ IsDomain host := by
  rw [domainHost] at h
  split at h
  · cases h
  rename_i haddress
  split at h
  · cases h
  rename_i hshape
  simp only [Bool.or_eq_true, not_or, decide_eq_true_eq, Bool.not_eq_true', Bool.not_eq_false,
    List.any_eq_true, not_exists, not_and, List.contains_iff_mem, Bool.not_eq_true,
    Option.isSome_eq_false_iff, Option.isNone_iff_eq_none] at haddress hshape
  refine ⟨(Except.ok.inj h).symm, haddress, by omega, hshape.1.2, fun l hl => ?_⟩
  simpa using hshape.2 l hl

theorem IsDomain.chars [Ipv6] {host : List Char} (h : IsDomain host) :
    ∀ c ∈ host, isHostChar c = true := by
  intro c hc
  rw [← (List.intercalate_splitOn '.' : ['.'].intercalate (host.splitOn '.') = host)] at hc
  rcases mem_intercalate hc with rfl | ⟨l, hl, hc⟩
  · decide
  · have hlabel := h.labels l hl
    simp only [isDnsLabel, Bool.and_eq_true, List.all_eq_true] at hlabel
    rw [isHostChar, hlabel.1.1.2 c hc]
    rfl

/-- Two labels and the dot between them. -/
theorem IsDomain.three_le [Ipv6] {host : List Char} (h : IsDomain host) : 3 ≤ host.length := by
  obtain ⟨x, y, rfl⟩ := List.append_of_mem h.dot
  have hne : ∀ s ∈ [x, y], s ≠ [] := by
    rintro s hs rfl
    have hempty : ([] : List Char) ∈ (x ++ '.' :: y).splitOn '.' := by
      rw [List.splitOn_append_cons_self, List.mem_append]
      simp only [List.mem_cons, List.not_mem_nil, or_false] at hs
      rcases hs with rfl | rfl
      · exact Or.inl (by rw [List.splitOn_nil]; simp)
      · exact Or.inr (by rw [List.splitOn_nil]; simp)
    exact absurd (h.labels [] hempty) (by decide)
  have hx := List.length_pos_of_ne_nil (hne x (by simp))
  have hy := List.length_pos_of_ne_nil (hne y (by simp))
  simp only [List.length_append, List.length_cons]
  omega

/-- The extension takes a domain of the manager unless it is a name of digits and
dots. -/
theorem IsDomain.isHostValue_iff [Ipv6] {host : List Char} (h : IsDomain host) :
    isHostValue (host.map unit) = true ↔ isNumeric host = false := by
  have hchars := h.chars
  have hascii : ∀ c ∈ host, c.toNat < 128 := fun c hc => toNat_of_isHostChar (hchars c hc)
  have hnumeric : ((host.map unit).all fun u => isDigit u || u == unit '.') = isNumeric host := by
    rw [isNumeric, List.all_map, Bool.eq_iff_iff, List.all_eq_true, List.all_eq_true]
    refine forall_congr' fun c => forall_congr' fun hc => ?_
    have hdot : (unit c == unit '.') = (c == '.') := by
      rw [Bool.eq_iff_iff, beq_iff_eq, beq_iff_eq]
      exact ⟨unit_inj (hascii c hc) (by decide), fun heq => by rw [heq]⟩
    rw [Function.comp_apply, isDigit_unit (hascii c hc), hdot]
  have hdot : (host.map unit).contains (unit '.') = true :=
    List.contains_iff_mem.2 (List.mem_map_of_mem h.dot)
  have hne : (host.map unit).isEmpty = false := by
    rw [List.isEmpty_eq_false_iff, ne_eq, List.map_eq_nil_iff]
    exact List.ne_nil_of_mem h.dot
  rw [isHostValue, hnumeric, hdot, hne]
  constructor
  · intro hvalue
    rw [Bool.eq_false_iff]
    intro htrue
    split at hvalue
    · -- four octets are an address, which `ip_address` would have taken
      rename_i hquad
      have haddress := ipv4Address_of_octets hchars hquad hvalue
      obtain ⟨a, ha⟩ := Option.isSome_iff_exists.1 haddress
      have hnone := h.address
      rw [ipAddress, ha] at hnone
      cases hnone
    · simp [htrue] at hvalue
  · intro hfalse
    have hquad : ¬ isDottedQuad (host.map unit) = true := by
      intro hquad
      obtain ⟨-, hparts⟩ := (isDottedQuad_map_unit hascii).1 hquad
      rw [Bool.eq_false_iff] at hfalse
      refine hfalse (List.all_eq_true.2 fun c hc => ?_)
      rw [← (List.intercalate_splitOn '.' : ['.'].intercalate (host.splitOn '.') = host)] at hc
      rcases mem_intercalate hc with rfl | ⟨t, ht, hc⟩
      · rfl
      · rw [(hparts t ht).2 c hc]
        rfl
    rw [if_neg hquad, if_neg (by simp [hfalse]), splitAt_map_unit hascii, List.all_map,
      List.all_eq_true]
    exact fun l hl => isLabel_map_unit (h.labels l hl)

theorem settingsPort_range [Tables] {text : List Char} {port : Nat} (h : settingsPort text = .ok port) :
    1 ≤ port ∧ port ≤ 65535 ∧ port ≠ 80 := by
  rw [settingsPort] at h
  split at h
  · cases h
  split at h
  · cases h
  split at h
  · cases h
  rename_i hrange
  obtain rfl := Except.ok.inj h
  simp only [Bool.or_eq_true, decide_eq_true_eq, not_or] at hrange
  omega

/-- The manager's ports are ports for the extension. -/
theorem checkPort_settingsPort [Tables] {text : List Char} {port : Nat} (h : settingsPort text = .ok port) :
    checkPort (.num (some port)) = .ok port := by
  have hrange := settingsPort_range h
  have hinteger : ∀ n : Nat, (JsVal.num (some n)).integer? = some (n : Int) := by
    intro n
    simp [JsVal.integer?]
  rw [checkPort, hinteger]
  simp only
  rw [if_neg (by omega), Int.toNat_natCast]

section

variable [Platform]

/-- On text in lower case the check of the host is that of its value. -/
theorem isValidHost_map_unit {host : List Char} (h : ∀ c ∈ host, isHostChar c = true)
    (hlength : 3 ≤ host.length ∧ host.length ≤ 253) :
    isValidHost (host.map unit) = isHostValue (host.map unit) ∧
      toLowerCase (host.map unit) = host.map unit := by
  have hunits : ∀ u ∈ host.map unit, isHostUnit u = true := by
    intro u hu
    obtain ⟨c, hc, rfl⟩ := List.mem_map.1 hu
    exact isHostUnit_unit (h c hc)
  have htrim : trim (host.map unit) = host.map unit :=
    trim_of_no_space fun u hu => (isHostUnit_plain (hunits u hu)).2.2
  have hlower : toLowerCase (host.map unit) = host.map unit :=
    toLowerCase_of_lower fun u hu =>
      ⟨(isHostUnit_plain (hunits u hu)).1, (isHostUnit_plain (hunits u hu)).2.1⟩
  refine ⟨?_, hlower⟩
  rw [isValidHost, htrim, hlower, List.length_map, if_neg]
  simp only [bne_self_eq_false, Bool.or_false, Bool.or_eq_true, decide_eq_true_eq]
  omega

/-- The host and the port pass the extension's checks as they are. -/
structure Importable (host : List Char) (port : Nat) : Prop where
  valid : isValidHost (host.flatMap utf16) = true
  lower : toLowerCase (host.flatMap utf16) = host.flatMap utf16
  port : checkPort (.num (some port)) = .ok port

theorem importable_iff {host : List Char} {port : Nat} (hchars : ∀ c ∈ host, isHostChar c = true)
    (hlength : 3 ≤ host.length ∧ host.length ≤ 253)
    (hport : checkPort (.num (some port)) = .ok port) :
    Importable host port ↔ isHostValue (host.map unit) = true := by
  have hunits := utf16_ascii fun c hc => toNat_of_isHostChar (hchars c hc)
  obtain ⟨hvalid, hlower⟩ := isValidHost_map_unit hchars hlength
  constructor
  · intro h
    have hhost := h.valid
    rw [hunits, hvalid] at hhost
    exact hhost
  · intro h
    refine ⟨?_, ?_, hport⟩
    · rw [hunits, hvalid]
      exact h
    · rw [hunits]
      exact hlower

variable [Ipv6] [Tables]

/-- What the manager accepts can be imported, but for domains of digits and dots. -/
theorem validateSettings_importable_iff {environment : Environment} {settings : Settings}
    (h : validateSettings environment = .ok settings) :
    Importable settings.host settings.port ↔
      environment.kindText = "ip".toList ∨ isNumeric environment.hostText = false := by
  obtain ⟨hkind, hport, hhost, -⟩ := validateSettings_ok h
  have hport := checkPort_settingsPort hport
  rw [settingsKind] at hkind
  split at hkind
  · -- a canonical address
    rename_i hip
    rw [← Except.ok.inj hkind] at hhost
    rw [settingsHost, ipHost] at hhost
    split at hhost
    · cases hhost
    rename_i a ha
    split at hhost
    · cases hhost
    have heq := Except.ok.inj hhost
    have hchars : ∀ c ∈ ipv4Text a, isHostChar c = true := by
      intro c hc
      rcases mem_ipv4Text hc with rfl | hdigit
      · rfl
      · simp [isHostChar, isLabelChar, hdigit]
    rw [← heq, importable_iff hchars (length_ipv4Text a) hport]
    exact ⟨fun _ => Or.inl hip, fun _ => isHostValue_ipv4Text a⟩
  split at hkind
  · rename_i hip hdomain
    rw [← Except.ok.inj hkind] at hhost
    obtain ⟨heq, hhost⟩ := domainHost_ok hhost
    rw [heq, importable_iff hhost.chars ⟨hhost.three_le, hhost.length⟩ hport, hhost.isHostValue_iff]
    exact ⟨Or.inr, fun hcase => hcase.resolve_left hip⟩
  · cases hkind

end

section

attribute [local instance] Platform.ascii Ipv6.sample Tables.ascii

/-- A domain with this host. -/
def Environment.domain (host : String) : Environment := fun name =>
  if name = "SHBVPN_KIND" then some "domain".toList
  else if name = "SHBVPN_HOST" then some host.toList
  else none

theorem validateSettings_importable_iff_sample : Importable "proxy.test".toList 443 := by
  have h : validateSettings (.domain "proxy.test") =
      .ok ⟨.domain, "proxy.test".toList, 443, [], none⟩ := by rfl
  exact (validateSettings_importable_iff h).2 (Or.inr (by decide +kernel))

/-- No address, since its last octet is too large, and no host for the extension. -/
theorem validateSettings_numeric : ¬ ∀ (environment : Environment) (settings : Settings),
    validateSettings environment = .ok settings → Importable settings.host settings.port := by
  intro hall
  have h : validateSettings (.domain "1.2.3.256") =
      .ok ⟨.domain, "1.2.3.256".toList, 443, [], none⟩ := by rfl
  exact absurd (hall _ _ h).valid (by decide +kernel)

end

end BrowserVpn
