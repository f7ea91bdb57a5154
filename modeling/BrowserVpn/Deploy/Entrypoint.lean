import BrowserVpn.Deploy.Config
import BrowserVpn.Server.Dialing
import BrowserVpn.Server.Start

/-!
# Deploy.Entrypoint — from the volume to the running proxy

`run_server.py`, the entrypoint of the container, turns the saved configuration into
the arguments of the server. The addresses of the proxy pass through four hands on the
way: the manager saves them, the entrypoint reads and passes them on, `flag` parses
them, and the guard of each request compares with them. None gets lost, so that no
request is ever connected to one.
-/

namespace BrowserVpn

open Data Python Async Serve

/-! ## run_server.py -/

namespace Python

/-- The code points of a text that `json` read. A surrogate may stand alone. -/
def codePoints : CodeUnits → List Nat
  | [] => []
  | [u] => [u.toNat]
  | u :: w :: rest =>
      if 0xD800 ≤ u.toNat && u.toNat < 0xDC00 && 0xDC00 ≤ w.toNat && w.toNat ≤ 0xDFFF then
        (0x10000 + (u.toNat - 0xD800) * 0x400 + (w.toNat - 0xDC00)) :: codePoints rest
      else u.toNat :: codePoints (w :: rest)

/-- The bytes of a code point for the operating system. A byte that was no text is a
surrogate and becomes the byte again. -/
def fsencodePoint (n : Nat) : Option (List UInt8) :=
  if n < 0xD800 || 0xDFFF < n then some (utf8 [Char.ofNat n])
  else if 0xDC80 ≤ n && n ≤ 0xDCFF then some [(n - 0xDC00).toUInt8]
  else none

/-- An argument of `os.execv`, `none` for a `ValueError`. -/
def fsencode (s : CodeUnits) : Option GoString :=
  match (codePoints s).mapM fsencodePoint with
  | none => none
  | some bytes => if 0 ∈ bytes.flatten then none else some bytes.flatten

end Python

/-- `SERVER`. -/
def serverPath : String := "/app/shbvpn-proxy"

/-- `proxy_arguments`, `none` for a `KeyError` or a `ValueError`. -/
def proxyArguments (config : List (CodeUnits × Json)) : Option (List CodeUnits) :=
  match get config "host", (get config "self_addresses").getD (.arr []) with
  | some (.str host), .arr addresses =>
      match strings addresses with
      | none => none
      | some addresses =>
          some ([ascii serverPath, ascii "--listen", ascii ":8443",
            ascii "--cert", ascii "/runtime/tls/current/fullchain.pem",
            ascii "--key", ascii "/runtime/tls/current/privkey.pem",
            ascii "--credentials", ascii "/runtime/credentials",
            ascii "--self-host", host] ++
              addresses.flatMap fun address => [ascii "--self-address", address])
  | _, _ => none

/-- What `is_file` and `stat` say of a path. -/
inductive Look where
  | noFile
  /-- `stat` failed. -/
  | changed
  | file (size : Nat)

/-- `runtime_ready`. -/
def runtimeReady (looks : List Look) : Bool :=
  looks.all fun look => match look with
    | .file size => 0 < size
    | _ => false

/-- What the entrypoint comes to. -/
inductive Entered where
  | waiting
  | failed
  /-- `os.execv`. -/
  | exec (arguments : List GoString)
deriving DecidableEq

/-- `os.execv` with these arguments. -/
def execv (arguments : List CodeUnits) : Entered :=
  match arguments.mapM fsencode with
  | none => .failed
  | some arguments => .exec arguments

/-- `run_proxy`, with its looks at the four files so far and what `config.json` has. -/
def runProxy (polls : List (List Look)) (config : List UInt8) : Entered :=
  if polls.any runtimeReady then
    match loads config with
    | some (.obj members) =>
        match proxyArguments members with
        | none => .failed
        | some arguments => execv arguments
    | _ => .failed
  else .waiting

/-! ## What is passed on -/

namespace Python

/-- The units of a character are its code point. -/
theorem codePoints_cons (c : Char) (rest : CodeUnits) :
    codePoints (utf16 c ++ rest) = c.toNat :: codePoints rest := by
  have hvalid : c.toNat < 0xD800 ∨ (0xDFFF < c.toNat ∧ c.toNat < 0x110000) := c.valid
  rw [utf16]
  by_cases hplane : c.toNat < 0x10000
  · have hunit : (c.toNat.toUInt16).toNat = c.toNat := by
      rw [UInt16.toNat_ofNat']
      omega
    have hhigh : (decide (0xD800 ≤ c.toNat) && decide (c.toNat < 0xDC00)) = false := by
      simp only [Bool.and_eq_false_iff, decide_eq_false_iff_not]
      omega
    rw [if_pos hplane, List.cons_append, List.nil_append]
    cases rest with
    | nil => simp only [codePoints, hunit]
    | cons w rest =>
        simp only [codePoints, hunit, hhigh, Bool.false_and, Bool.false_eq_true, if_false]
  · have hhigh : ((0xD800 + (c.toNat - 0x10000) / 0x400).toUInt16).toNat =
        0xD800 + (c.toNat - 0x10000) / 0x400 := by
      rw [UInt16.toNat_ofNat']
      omega
    have hlow : ((0xDC00 + (c.toNat - 0x10000) % 0x400).toUInt16).toNat =
        0xDC00 + (c.toNat - 0x10000) % 0x400 := by
      rw [UInt16.toNat_ofNat']
      omega
    have hback : 0x10000 + (0xD800 + (c.toNat - 0x10000) / 0x400 - 0xD800) * 0x400 +
        (0xDC00 + (c.toNat - 0x10000) % 0x400 - 0xDC00) = c.toNat := by omega
    have hpair : (decide (0xD800 ≤ 0xD800 + (c.toNat - 0x10000) / 0x400) &&
        decide (0xD800 + (c.toNat - 0x10000) / 0x400 < 0xDC00) &&
          decide (0xDC00 ≤ 0xDC00 + (c.toNat - 0x10000) % 0x400) &&
            decide (0xDC00 + (c.toNat - 0x10000) % 0x400 ≤ 0xDFFF)) = true := by
      simp only [Bool.and_eq_true, decide_eq_true_eq]
      omega
    rw [if_neg hplane, List.cons_append, List.cons_append, List.nil_append, codePoints]
    simp only [hhigh, hlow, hpair, hback, if_true]

theorem codePoints_utf16 (s : List Char) : codePoints (s.flatMap utf16) = s.map Char.toNat := by
  induction s with
  | nil => rfl
  | cons c s ih => rw [List.flatMap_cons, codePoints_cons, ih, List.map_cons]

theorem fsencodePoint_toNat (c : Char) : fsencodePoint c.toNat = some (utf8 [c]) := by
  have hvalid : c.toNat < 0xD800 ∨ (0xDFFF < c.toNat ∧ c.toNat < 0x110000) := c.valid
  have hscalar : (decide (c.toNat < 0xD800) || decide (0xDFFF < c.toNat)) = true := by
    simp only [Bool.or_eq_true, decide_eq_true_eq]
    omega
  rw [fsencodePoint, if_pos hscalar, Char.ofNat_toNat]

/-- Text without NUL is passed on in UTF-8. -/
theorem fsencode_utf16 {s : List Char} (h : '\x00' ∉ s) : fsencode (s.flatMap utf16) = some (utf8 s) := by
  have hpoints : (s.map Char.toNat).mapM fsencodePoint = some (s.map fun c => utf8 [c]) := by
    clear h
    induction s with
    | nil => rfl
    | cons c s ih => simp [List.mapM_cons, fsencodePoint_toNat, ih]
  have hflatten : (s.map fun c => utf8 [c]).flatten = utf8 s := by
    clear h hpoints
    induction s with
    | nil => rfl
    | cons c s ih => rw [List.map_cons, List.flatten_cons, ih, ← utf8_append, List.singleton_append]
  have hzero : (0 : UInt8) ∉ utf8 s := by
    intro hmem
    exact h ((asciiByte_mem_utf8 (c := '\x00') (by decide)).1 hmem)
  rw [fsencode, codePoints_utf16, hpoints]
  simp only [hflatten, hzero, if_false]

end Python

/-- The arguments that the entrypoint writes itself. -/
theorem fsencode_ascii {s : String}
    (hall : s.toList.all (fun c => c.toNat < 128 ∧ c ≠ '\x00') = true) :
    fsencode (ascii s) = some (go s) := by
  have h : ∀ c ∈ s.toList, c.toNat < 128 ∧ c ≠ '\x00' :=
    fun c hc => of_decide_eq_true (List.all_eq_true.1 hall c hc)
  have hunits : ascii s = s.toList.flatMap utf16 := (utf16_ascii fun c hc => (h c hc).1).symm
  have hbytes : go s = utf8 s.toList := (utf8_ascii fun c hc => (h c hc).1).symm
  rw [hunits, hbytes]
  exact fsencode_utf16 fun hmem => (h _ hmem).2 rfl

theorem strings_texts (texts : List CodeUnits) : strings (texts.map Json.str) = some texts := by
  induction texts with
  | nil => rfl
  | cons t texts ih =>
      rw [strings] at ih
      rw [strings, List.map_cons, List.mapM_cons, ih]
      rfl

/-! ## The saved configuration on the command line -/

section

variable [Ipv6] [Netip]

/-- The server reads each address as the manager prints it, and IPv6 is printed in digits,
letters, colons and dots. -/
structure Understands : Prop where
  parse : ∀ a, IsCanonical a → Netip.parseAddr (utf8 (ipText a)) = some a.toAddr
  chars : ∀ a, ∀ c ∈ Ipv6.text a, isHostChar c = true ∨ c = ':'

theorem Understands.chars_ipText (h : Understands) {a : IpAddress} (ha : IsCanonical a) :
    ∀ c ∈ ipText a, isHostChar c = true ∨ c = ':' := by
  intro c hc
  cases a with
  | v4 a =>
      rcases mem_ipv4Text hc with rfl | hdigit
      · exact Or.inl rfl
      · exact Or.inl (by simp [isHostChar, isLabelChar, hdigit])
  | v6 a scopeId =>
      rcases ha with ⟨rfl, -⟩
      exact h.chars a c hc

/-- The flags of a server with this configuration. -/
def SavedConfig.flags (config : SavedConfig) (addresses : List Addr) : Flags where
  listen := go ":8443"
  cert := go "/runtime/tls/current/fullchain.pem"
  key := go "/runtime/tls/current/privkey.pem"
  credentials := go "/runtime/credentials"
  selfHost := utf8 config.host
  extraSelf := addresses

/-- The arguments that `os.execv` gets. -/
def SavedConfig.arguments (config : SavedConfig) : List GoString :=
  [go "--listen", go ":8443", go "--cert", go "/runtime/tls/current/fullchain.pem",
    go "--key", go "/runtime/tls/current/privkey.pem", go "--credentials", go "/runtime/credentials",
    go "--self-host", utf8 config.host] ++
    (config.selfAddresses.map utf8).flatMap fun address => [go "--self-address", address]

omit [Ipv6] [Netip] in
theorem proxyArguments_members (config : SavedConfig) :
    proxyArguments config.members =
      some ([ascii serverPath, ascii "--listen", ascii ":8443",
        ascii "--cert", ascii "/runtime/tls/current/fullchain.pem",
        ascii "--key", ascii "/runtime/tls/current/privkey.pem",
        ascii "--credentials", ascii "/runtime/credentials",
        ascii "--self-host", config.host.flatMap utf16] ++
          (config.selfAddresses.map fun t => t.flatMap utf16).flatMap
            fun address => [ascii "--self-address", address]) := by
  rcases config.get_members with ⟨-, hhost, -, haddresses⟩
  have hstrings := strings_texts (config.selfAddresses.map fun t => t.flatMap utf16)
  rw [List.map_map] at hstrings
  rw [proxyArguments, hhost, haddresses]
  simp only [Option.getD_some]
  rw [show strings (config.selfAddresses.map fun t => Json.str (t.flatMap utf16)) = _ from hstrings]

omit [Ipv6] [Netip] in
theorem execv_arguments {config : SavedConfig} (hhost : '\x00' ∉ config.host)
    (haddresses : ∀ t ∈ config.selfAddresses, '\x00' ∉ t) {arguments : List CodeUnits}
    (h : proxyArguments config.members = some arguments) :
    execv arguments = .exec (go serverPath :: config.arguments) := by
  rw [proxyArguments_members] at h
  obtain rfl := Option.some.inj h
  have hpairs : ∀ texts : List (List Char), (∀ t ∈ texts, '\x00' ∉ t) →
      ((texts.map fun t => t.flatMap utf16).flatMap
        fun address => [ascii "--self-address", address]).mapM fsencode =
        some ((texts.map utf8).flatMap fun address => [go "--self-address", address]) := by
    intro texts
    induction texts with
    | nil => exact fun _ => rfl
    | cons t texts ih =>
        intro htexts
        have hrest := ih fun t ht => htexts t (by simp [ht])
        simp only [List.map_cons, List.flatMap_cons, List.cons_append, List.nil_append, List.mapM_cons,
          hrest, fsencode_utf16 (htexts t (by simp)),
          fsencode_ascii (s := "--self-address") (by decide)]
        rfl
  rw [execv, List.mapM_append, hpairs _ haddresses]
  simp only [List.mapM_cons, List.mapM_nil, fsencode_utf16 hhost,
    fsencode_ascii (s := serverPath) (by decide),
    fsencode_ascii (s := "--listen") (by decide),
    fsencode_ascii (s := ":8443") (by decide),
    fsencode_ascii (s := "--cert") (by decide),
    fsencode_ascii (s := "/runtime/tls/current/fullchain.pem") (by decide),
    fsencode_ascii (s := "--key") (by decide),
    fsencode_ascii (s := "/runtime/tls/current/privkey.pem") (by decide),
    fsencode_ascii (s := "--credentials") (by decide),
    fsencode_ascii (s := "/runtime/credentials") (by decide),
    fsencode_ascii (s := "--self-host") (by decide)]
  rfl

/-- The texts of the configuration are those of public addresses. -/
abbrev Printed (texts : List (List Char)) (addresses : List IpAddress) : Prop :=
  List.Forall₂ (fun t a => IsCanonical a ∧ a.isPublic = true ∧ ipText a = t) texts addresses

section

omit [Netip]

theorem CanonicalAddresses.exists_printed {texts : List (List Char)} (h : CanonicalAddresses texts) :
    ∃ addresses, Printed texts addresses := by
  have hall : ∀ texts : List (List Char), (∀ t ∈ texts, ∃ a : IpAddress, IsCanonical a ∧
      a.isPublic = true ∧ ipText a = t) → ∃ addresses, Printed texts addresses := by
    intro texts
    induction texts with
    | nil => exact fun _ => ⟨[], .nil⟩
    | cons t texts ih =>
        intro htexts
        rcases htexts t (by simp) with ⟨a, ha⟩
        rcases ih fun t ht => htexts t (by simp [ht]) with ⟨addresses, haddresses⟩
        exact ⟨a :: addresses, .cons ha haddresses⟩
  exact hall texts h.printed

theorem Printed.canonical {texts : List (List Char)} {addresses : List IpAddress}
    (h : Printed texts addresses) : ∀ a ∈ addresses, IsCanonical a := by
  induction h with
  | nil => simp
  | cons ha _ ih => exact List.forall_mem_cons.2 ⟨ha.1, ih⟩

theorem Printed.exists_mem {texts : List (List Char)} {addresses : List IpAddress}
    (h : Printed texts addresses) {t : List Char} (ht : t ∈ texts) :
    ∃ a ∈ addresses, IsCanonical a ∧ ipText a = t := by
  induction h with
  | nil => cases ht
  | @cons t' a texts addresses ha _ ih =>
      rcases List.mem_cons.1 ht with rfl | ht
      · exact ⟨a, List.mem_cons_self, ha.1, ha.2.2⟩
      · rcases ih ht with ⟨b, hb, hrest⟩
        exact ⟨b, List.mem_cons_of_mem _ hb, hrest⟩

/-- Addresses are the same when their texts are. -/
theorem Printed.mem {texts : List (List Char)} {addresses : List IpAddress}
    (h : Printed texts addresses) {own : IpAddress} (hown : IsCanonical own)
    (hmem : ipText own ∈ texts) : own ∈ addresses := by
  rcases h.exists_mem hmem with ⟨a, ha, hcanonical, heq⟩
  have hread := ipAddress_ipText hcanonical
  rw [heq, ipAddress_ipText hown] at hread
  rw [Option.some.inj hread]
  exact ha

end

omit [Ipv6] [Netip] in
/-- A canonical address is nothing else for the server, too. -/
theorem unmap_toAddr {a : IpAddress} (h : IsCanonical a) : a.toAddr.unmap = a.toAddr := by
  cases a with
  | v4 a => rfl
  | v6 a scopeId =>
      rcases h with ⟨rfl, hmapped⟩
      exact Addr.unmap_v6 hmapped _

omit [Ipv6] [Netip] in
/-- The server calls an address public that the manager does. -/
theorem publicAddress_toAddr {a : IpAddress} (h : IsCanonical a) (hpublic : a.isPublic = true) :
    publicAddress a.toAddr = true ∧ a.toAddr.zone = [] := by
  have hscope : a.scopeId = none := by
    cases a with
    | v4 a => rfl
    | v6 a scopeId => exact h.1
  rw [IpAddress.isPublic_eq hscope, Bool.and_eq_true] at hpublic
  refine ⟨hpublic.1, ?_⟩
  rw [← unmap_toAddr h]
  exact zone_of_publicAddress hpublic.1

/-- `flag` reads the arguments back, and each address passes its check. -/
theorem parseFlags_arguments (hnet : Understands) {config : SavedConfig}
    {addresses : List IpAddress} (h : Printed config.selfAddresses addresses) :
    parseFlags {} config.arguments = .ok (config.flags (addresses.map IpAddress.toAddr)) := by
  have hparsed : List.Forall₂ (fun value a => Netip.parseAddr value = some a ∧ a.zone = [] ∧
      publicAddress a = true) (config.selfAddresses.map utf8) (addresses.map IpAddress.toAddr) := by
    rw [List.forall₂_map_left_iff, List.forall₂_map_right_iff]
    refine h.imp fun t a ha => ?_
    rcases ha with ⟨hcanonical, hpublic, rfl⟩
    rcases publicAddress_toAddr hcanonical hpublic with ⟨hpublic', hzone⟩
    exact ⟨hnet.parse a hcanonical, hzone, hpublic'⟩
  have hunmap : (addresses.map IpAddress.toAddr).map Addr.unmap = addresses.map IpAddress.toAddr := by
    rw [List.map_map]
    exact List.map_congr_left fun a ha => unmap_toAddr (h.canonical a ha)
  simp only [SavedConfig.arguments, List.cons_append, List.nil_append]
  rw [parseFlags_value (go "listen") (by decide) rfl rfl,
    parseFlags_value (go "cert") (by decide) rfl rfl,
    parseFlags_value (go "key") (by decide) rfl rfl,
    parseFlags_value (go "credentials") (by decide) rfl rfl,
    parseFlags_value (go "self-host") (by decide) rfl rfl,
    parseFlags_selfAddress hparsed, hunmap]
  rfl

/-! ## From the settings on -/

variable [Tables]

omit [Netip] in
/-- What was accepted passed `validate_settings`. -/
theorem Volume.after_accepted (calls : List (Environment × Disk)) :
    ∀ settings ∈ (Volume.after calls).accepted,
      ∃ environment, validateSettings environment = .ok settings := by
  have hrun : ∀ (calls : List (Environment × Disk)) (v : Volume),
      (∀ settings ∈ v.accepted, ∃ environment, validateSettings environment = .ok settings) →
      ∀ settings ∈ (calls.foldl (fun v call => (v.call call.1 call.2).2) v).accepted,
        ∃ environment, validateSettings environment = .ok settings := by
    intro calls
    induction calls with
    | nil => exact fun v hv => hv
    | cons call calls ih =>
        intro v hv
        refine ih _ ?_
        have haccept : ∀ settings, validateSettings call.1 = .ok settings →
            ∀ other ∈ settings :: v.accepted, ∃ environment, validateSettings environment = .ok other := by
          intro settings hvalidate other hother
          rcases List.mem_cons.1 hother with rfl | hother
          · exact ⟨call.1, hvalidate⟩
          · exact hv other hother
        rcases v.call_cases call.1 call.2 with ⟨e, hcall⟩ | ⟨settings, config, hvalidate, -, hworks,
          hcall | ⟨-, -, hcall⟩⟩
        · simp only [hcall]
          exact hv
        · simp only [hcall, hworks]
          exact haccept settings hvalidate
        · simp only [hcall]
          exact haccept settings hvalidate
  exact hrun calls _ (by simp)

omit [Netip] [Tables] in
/-- A host that is accepted is a canonical address or a domain. -/
theorem settingsHost_ok {kind : Kind} {text host : List Char} (h : settingsHost kind text = .ok host) :
    (kind = .ip → ∃ a, host = ipv4Text a ∧ (IpAddress.v4 a).isPublic = true) ∧
      (kind = .domain → IsDomain host) ∧ (3 ≤ host.length ∧ host.length ≤ 253) ∧
        ∀ c ∈ host, isHostChar c = true := by
  cases kind with
  | ip =>
      rw [settingsHost, ipHost] at h
      split at h
      · cases h
      rename_i a ha
      split at h
      · cases h
      rename_i hpublic
      obtain rfl := Except.ok.inj h
      refine ⟨fun _ => ⟨a, rfl, ?_⟩, fun hkind => absurd hkind (by decide), length_ipv4Text a, ?_⟩
      · rw [isPublicText_eq, ipAddress, ha] at hpublic
        simpa using hpublic
      · intro c hc
        rcases mem_ipv4Text hc with rfl | hdigit
        · rfl
        · simp [isHostChar, isLabelChar, hdigit]
  | domain =>
      rcases domainHost_ok h with ⟨rfl, hdomain⟩
      exact ⟨fun hkind => absurd hkind (by decide), fun _ => hdomain,
        ⟨hdomain.three_le, hdomain.length⟩, hdomain.chars⟩

/-- What is known of the configuration that a volume has. -/
structure SavedConfig.Valid (config : SavedConfig) : Prop where
  ip : config.kind = .ip → ∃ a, config.host = ipv4Text a ∧ (IpAddress.v4 a).isPublic = true
  domain : config.kind = .domain → IsDomain config.host
  length : 3 ≤ config.host.length ∧ config.host.length ≤ 253
  host_chars : ∀ c ∈ config.host, isHostChar c = true
  port : checkPort (.num (some config.port)) = .ok config.port
  addresses : CanonicalAddresses config.selfAddresses

omit [Netip] [Tables] in
theorem SavedConfig.Valid.host_ne {config : SavedConfig} (h : config.Valid) : config.host ≠ [] := by
  intro hnil
  have hlength := h.length.1
  simp [hnil] at hlength

omit [Netip] in
theorem Volume.valid_of_file {calls : List (Environment × Disk)} {bytes : List UInt8}
    (h : (Volume.after calls).path = .file bytes) :
    ∃ config : SavedConfig, bytes = config.data ∧ config.Valid := by
  cases Volume.after_coherent calls with
  | fresh hpath _ =>
      rw [hpath] at h
      cases h
  | saved config hne hsaved =>
      rw [hsaved.path] at h
      injection h with hbytes
      -- the identity is that of the first settings
      have hlast := List.getLast?_eq_getLast_of_ne_nil hne
      rcases hsaved.first _ hlast with ⟨hkind, hhost, hport⟩
      rcases Volume.after_accepted calls _ (List.getLast_mem hne) with ⟨environment, hvalidate⟩
      have haccepted := settingsHost_ok (validateSettings_ok hvalidate).host
      have hchecked := checkPort_settingsPort (validateSettings_ok hvalidate).port
      rw [← hkind, ← hhost] at haccepted
      rw [← hport] at hchecked
      exact ⟨config, hbytes.symm, haccepted.1, haccepted.2.1, haccepted.2.2.1, haccepted.2.2.2,
        hchecked, hsaved.canonical⟩

omit [Tables] in
/-- The entrypoint passes a valid configuration on. -/
theorem SavedConfig.Valid.runProxy (hnet : Understands) {config : SavedConfig} (h : config.Valid)
    {polls : List (List Look)} (hready : polls.any runtimeReady = true) :
    runProxy polls config.data = .exec (go serverPath :: config.arguments) := by
  have hhost : '\x00' ∉ config.host := fun hmem => absurd (h.host_chars _ hmem) (by decide)
  have haddresses : ∀ t ∈ config.selfAddresses, '\x00' ∉ t := by
    intro t ht
    rcases h.addresses.printed t ht with ⟨a, ha, -, rfl⟩
    intro hmem
    rcases hnet.chars_ipText ha _ hmem with hchar | hcolon
    · exact absurd hchar (by decide)
    · exact absurd hcolon (by decide)
  rw [BrowserVpn.runProxy, if_pos hready, SavedConfig.loads_data (checkPort_range h.port)]
  simp only [proxyArguments_members]
  exact execv_arguments hhost haddresses (proxyArguments_members config)

variable [Tls] {Key Tag : Type}

/-- The server runs on whatever the manager accepted. Its command line is read back as it
was saved, each address passes the check of its flag, and only what it gets from outside can
keep the server from starting. -/
theorem saved_config_starts (hnet : Understands) {calls : List (Environment × Disk)}
    {bytes : List UInt8} (hfile : (Volume.after calls).path = .file bytes)
    {polls : List (List Look)} (hready : polls.any runtimeReady = true) :
    ∃ (config : SavedConfig) (addresses : List IpAddress), bytes = config.data ∧
      Printed config.selfAddresses addresses ∧
      runProxy polls bytes = .exec (go serverPath :: config.arguments) ∧
      parseFlags {} config.arguments = .ok (config.flags (addresses.map IpAddress.toAddr)) ∧
      ∀ (hmac : Hmac Key Tag) (outside : Surroundings Key),
        (∃ listen auth guard reloader,
          serverMain hmac outside config.arguments = .proxy listen auth guard reloader) ↔
          (∃ line, readCredentials (outside.credentials (go "/runtime/credentials")) = .ok line) ∧
            (∃ key, outside.key = .ok key) ∧
            (∃ self, outside.self ⟨utf8 config.host, addresses.map IpAddress.toAddr⟩ = .ok self) ∧
            ∃ reloader, CertificateReloader.newCertificateReloader
              (go "/runtime/tls/current/fullchain.pem") (go "/runtime/tls/current/privkey.pem")
              (outside.reads (go "/runtime/tls/current/fullchain.pem")
                (go "/runtime/tls/current/privkey.pem")) = .ok reloader := by
  rcases Volume.valid_of_file hfile with ⟨config, rfl, hvalid⟩
  rcases hvalid.addresses.exists_printed with ⟨addresses, haddresses⟩
  have hflags := parseFlags_arguments hnet haddresses
  refine ⟨config, addresses, rfl, haddresses, hvalid.runProxy hnet hready, hflags, ?_⟩
  intro hmac outside
  have hhost : (config.flags (addresses.map IpAddress.toAddr)).selfHost ≠ [] := by
    intro hnil
    exact hvalid.host_ne (utf8_eq_nil.1 hnil)
  have hacme : (config.flags (addresses.map IpAddress.toAddr)).acmeOnly = false := rfl
  simp only [serverMain, hflags, hacme, Bool.false_eq_true, if_false]
  have hcert : go "/runtime/tls/current/fullchain.pem" ≠ [] := by decide
  have hkey : go "/runtime/tls/current/privkey.pem" ≠ [] := by decide
  have hcredentials : go "/runtime/credentials" ≠ [] := by decide
  have hlisten : containsAny (go ":8443") (go "\r\n") = false := by decide
  exact exists_startProxy hcert hkey hcredentials hhost hlisten

/-- The addresses that the configuration gives the proxy. -/
inductive SavedConfig.Own (config : SavedConfig) : IpAddress → Prop where
  | host {a : BitVec 32} (hkind : config.kind = .ip) (hhost : config.host = ipv4Text a) :
      config.Own (.v4 a)
  | extra {a : IpAddress} (hcanonical : IsCanonical a) (hmem : ipText a ∈ config.selfAddresses) :
      config.Own a

omit [Netip] [Tables] [Tls] in
theorem SavedConfig.Own.canonical {config : SavedConfig} {a : IpAddress} (h : config.Own a) :
    IsCanonical a := by
  cases h with
  | host hkind hhost => trivial
  | extra hcanonical hmem => exact hcanonical

variable [Unicode] [DecidableEq Tag]

omit [Unicode] [Tables] [Tls] in
/-- The guard of a server with this configuration is to find its addresses. -/
theorem SavedConfig.Own.ownAddress (hnet : Understands) {config : SavedConfig}
    (hvalid : config.Valid) {addresses : List IpAddress}
    (haddresses : Printed config.selfAddresses addresses) {own : IpAddress} (h : config.Own own)
    (labels : List GuardLabel) (id : Nat) :
    OwnAddress ⟨utf8 config.host, addresses.map IpAddress.toAddr⟩ labels id own.toAddr := by
  rw [← unmap_toAddr h.canonical]
  cases h with
  | @host a hkind hhost =>
      refine .literal (fun hnil => hvalid.host_ne (utf8_eq_nil.1 hnil)) ?_
      rw [hhost]
      exact hnet.parse (.v4 a) trivial
  | extra hcanonical hmem =>
      exact .extra (List.mem_map_of_mem (haddresses.mem hcanonical hmem))

omit [Ipv6] [Tables] [Tls] in
/-- What a request dialed is permitted. -/
theorem permitted_of_path {hmac : Hmac Key Tag} {auth : ProxyAuth Key Tag} {guard : GuardConfig}
    {calls : Nat} {r : Request} {id : Nat} {s s' : Site} {ms : History} {p : Handler Unit}
    (hs : s.Reached guard)
    (hpath : Path (effect guard id) (serveHTTP hmac auth guard calls r) s ms p s') :
    ∀ d ∈ dials ms, Permitted guard s'.labels id r d.1 := by
  rcases hpath.recorded [] with ⟨ms', hrecorded⟩
  have hserved := served_of_wp (hrecorded.wp (wp_serveHTTP hmac auth calls rfl))
  rw [List.nil_append] at hserved
  have hreached : s'.Reached guard := by
    refine (hpath.move (R := fun s t => s.Reached guard → t.Reached guard) (fun _ h => h)
      (fun h₁ h₂ h => h₂ (h₁ h)) ?_).1 hs
    intro s c a t he hs
    rcases he.1 with ⟨ls, hlabels, hrun⟩
    rw [Site.Reached, hlabels]
    exact hs.trans hrun
  rcases hserved with hsilent | ⟨-, authority, defaultPort, targets, hasks, hready⟩
  · intro d hd
    have hnone : dials ms = [] := hsilent
    simp [hnone] at hd
  · intro d hd
    rw [← flatten_attempts, List.mem_flatten] at hd
    rcases hd with ⟨attempt, hattempt, hd⟩
    exact hready.vetted.permitted hreached hasks ((hready.tries attempt hattempt).mem hd)

/-- No request is connected to the proxy itself. In a container that the entrypoint started
on the volume, nothing that any request dials is an address that the settings gave the
proxy, however the requests interleave and whatever lookups and interfaces say. -/
theorem own_addresses_never_dialed (hnet : Understands) {saves : List (Environment × Disk)}
    {bytes : List UInt8} (hfile : (Volume.after saves).path = .file bytes)
    {polls : List (List Look)} {program : GoString} {arguments : List GoString}
    (hexec : runProxy polls bytes = .exec (program :: arguments)) {hmac : Hmac Key Tag}
    {outside : Surroundings Key} {listen : GoString} {auth : ProxyAuth Key Tag} {guard : GuardConfig}
    {reloader : CertificateReloader}
    (hstart : serverMain hmac outside arguments = .proxy listen auth guard reloader) :
    ∃ config : SavedConfig, bytes = config.data ∧
      ∀ (calls : Nat) (r : Request) (id : Nat) (s s' : Site) (ms : History) (p : Handler Unit),
        s.Reached guard → Path (effect guard id) (serveHTTP hmac auth guard calls r) s ms p s' →
        ∀ d ∈ dials ms, ∃ a port, d.1 = joinHostPort (Netip.text a) port ∧ publicAddress a = true ∧
          ∀ own, config.Own own → a ≠ own.toAddr := by
  rcases Volume.valid_of_file hfile with ⟨config, rfl, hvalid⟩
  rcases hvalid.addresses.exists_printed with ⟨addresses, haddresses⟩
  have hready : polls.any runtimeReady = true := by
    by_contra hnot
    rw [runProxy, if_neg hnot] at hexec
    cases hexec
  rw [hvalid.runProxy hnet hready] at hexec
  injection hexec with hexec
  obtain rfl := (List.cons.inj hexec).2
  -- the server is started with what was saved
  have hacme : (config.flags (addresses.map IpAddress.toAddr)).acmeOnly = false := rfl
  simp only [serverMain, parseFlags_arguments hnet haddresses, hacme, Bool.false_eq_true,
    if_false] at hstart
  have hguard := (startProxy_eq_proxy hstart).2.1
  refine ⟨config, rfl, ?_⟩
  intro calls r id s s' ms p hs hpath d hd
  rcases permitted_of_path hs hpath d hd with ⟨-, -, -, port, a, -, -, -, -, htarget, -, hpublic, hother⟩
  refine ⟨a, port, htarget, hpublic, ?_⟩
  intro own hown heq
  apply hother
  rw [heq, hguard]
  exact hown.ownAddress hnet hvalid haddresses s'.labels id

end

section

attribute [local instance] Ipv6.sample Tables.ascii Tls.sample Unicode.sample

/-- A server that reads and prints addresses as the manager does. -/
@[reducible] def Netip.ofManager : Netip where
  parseAddr s :=
    match s.toByteArray.utf8Decode? with
    | none => none
    | some text => (ipAddress text.toList).map IpAddress.toAddr
  text a :=
    match a with
    | .invalid => go "invalid IP"
    | .v4 a => utf8 (ipv4Text a)
    | .v6 a [] => utf8 (Ipv6.text a)
    | .v6 a zone => utf8 (Ipv6.text a) ++ go "%" ++ zone

attribute [local instance] Netip.ofManager

theorem understands_ofManager : Understands where
  parse a ha := by
    have hbytes : (utf8 (ipText a)).toByteArray = (ipText a).utf8Encode := rfl
    simp only [Netip.parseAddr, hbytes, List.utf8Decode?_utf8Encode]
    rw [ipAddress_ipText ha]
    rfl
  chars a := by
    intro c hc
    rcases List.mem_cons.1 hc with rfl | hc
    · exact Or.inr rfl
    · rw [List.eq_of_mem_replicate hc]
      exact Or.inl rfl

/-- An installation at an address, with another of its own. -/
def Environment.twoAddresses : Environment := fun name =>
  if name = "SHBVPN_KIND" then some "ip".toList
  else if name = "SHBVPN_HOST" then some "8.8.8.8".toList
  else if name = "SHBVPN_SELF_ADDRESSES" then some "8.8.4.4".toList
  else none

def SavedConfig.twoAddresses : SavedConfig := ⟨.ip, "8.8.8.8".toList, 443, ["8.8.4.4".toList]⟩

def readyPolls : List (List Look) := [[.noFile], [.file 1, .file 1, .file 1, .file 1]]

/-- Files and random bytes that are all there. -/
def Surroundings.sample : Surroundings Unit where
  credentials _ := .ok (go "browser:secret")
  key := .ok ()
  self _ := .ok ∅
  reads _ _ := ⟨.ok (go "pem"), .ok (go "pem")⟩

theorem saved_config_starts_sample :
    ∃ (config : SavedConfig) (addresses : List IpAddress),
      SavedConfig.twoAddresses.data = config.data ∧ Printed config.selfAddresses addresses ∧
      runProxy readyPolls SavedConfig.twoAddresses.data =
        .exec (go serverPath :: config.arguments) ∧
      parseFlags {} config.arguments = .ok (config.flags (addresses.map IpAddress.toAddr)) := by
  have hfile : (Volume.after [(.twoAddresses, .works)]).path = .file SavedConfig.twoAddresses.data := by
    decide +kernel
  have hready : readyPolls.any runtimeReady = true := by decide
  rcases @saved_config_starts _ _ _ _ Unit GoString understands_ofManager _ _ hfile _ hready with
    ⟨config, addresses, hbytes, hprinted, hexec, hflags, -⟩
  exact ⟨config, addresses, hbytes, hprinted, hexec, hflags⟩

/-- The guard has both addresses. -/
theorem own_addresses_never_dialed_sample :
    ∃ config : SavedConfig, SavedConfig.twoAddresses.data = config.data ∧
      ∀ (calls : Nat) (r : Request) (id : Nat) (s s' : Site) (ms : History) (p : Handler Unit),
        s.Reached ⟨go "8.8.8.8", [.v4 0x08080404#32]⟩ →
        Path (effect ⟨go "8.8.8.8", [.v4 0x08080404#32]⟩ id)
          (serveHTTP .transparent ⟨(), go "browser:secret"⟩ ⟨go "8.8.8.8", [.v4 0x08080404#32]⟩ calls r)
          s ms p s' →
        ∀ d ∈ dials ms, ∃ a port, d.1 = joinHostPort (Netip.text a) port ∧ publicAddress a = true ∧
          ∀ own, config.Own own → a ≠ own.toAddr := by
  have hfile : (Volume.after [(.twoAddresses, .works)]).path = .file SavedConfig.twoAddresses.data := by
    decide +kernel
  have hexec : runProxy readyPolls SavedConfig.twoAddresses.data =
      .exec (go serverPath :: SavedConfig.twoAddresses.arguments) := by decide +kernel
  have hflags : parseFlags {} SavedConfig.twoAddresses.arguments =
      .ok (SavedConfig.twoAddresses.flags [.v4 0x08080404#32]) := by
    have hprinted : Printed SavedConfig.twoAddresses.selfAddresses [.v4 0x08080404#32] :=
      .cons ⟨trivial, by decide +kernel, by decide +kernel⟩ .nil
    exact parseFlags_arguments understands_ofManager hprinted
  have hstart : serverMain Hmac.transparent Surroundings.sample SavedConfig.twoAddresses.arguments =
      .proxy (go ":8443") ⟨(), go "browser:secret"⟩ ⟨go "8.8.8.8", [.v4 0x08080404#32]⟩
        ⟨go "/runtime/tls/current/fullchain.pem", go "/runtime/tls/current/privkey.pem",
          ⟨go "pem", go "pem"⟩, some (go "pem"), []⟩ := by
    simp only [serverMain, hflags]
    rfl
  exact own_addresses_never_dialed understands_ofManager hfile hexec hstart

end

end BrowserVpn
