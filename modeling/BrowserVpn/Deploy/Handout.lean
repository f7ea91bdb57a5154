import BrowserVpn.Deploy.Entrypoint
import Mathlib.Data.Nat.Digits.Defs

/-!
# Deploy.Handout — the key that is handed out

`ensure_credentials`, `rotate_credentials` and `show_key` over the life of a volume.
The key that is printed is made of the configuration and the credentials; the extension
takes it apart again and the server compares what comes back with its own reading of the
file. After any run both ends agree, and a key from before a rotation is worth nothing.
-/

namespace BrowserVpn

open Data Python

/-! ## The volume -/

/-- What `secrets.token_urlsafe(32)` draws. -/
structure Random where
  bytes : List UInt8
  length : bytes.length = 32

/-- The text that it returns. -/
def Random.token (random : Random) : List Char :=
  ((urlsafeB64encode random.bytes).rdropWhile fun c => c == base64Pad).map fun b => Char.ofNat b.toNat

/-- The credentials that the manager writes. -/
def freshCredentials (token : List Char) : List Char := "browser:".toList ++ token ++ ['\n']

/-- A volume with its credentials. -/
structure Installation where
  volume : Volume
  credentials : Option (List Char)

def Installation.empty : Installation := ⟨⟨.missing, []⟩, none⟩

/-- What is done to a volume: the start of `run_cycle` with an environment, and
`rotate_credentials`, with what the file system does for each file. -/
inductive Command where
  | cycle (environment : Environment) (random : Random) (config credentials : Disk)
  | rotate (random : Random) (credentials : Disk)

/-- What a command draws. -/
def Command.random : Command → Random
  | .cycle _ random _ _ => random
  | .rotate random _ => random

/-- The path of the credentials for `ensure_credentials`. -/
def credentialsPath : Option (List Char) → CredentialsPath
  | none => .missing
  | some content => .file content

section

variable [Ipv6] [Tables]

/-- A command that fails leaves what it has not written yet. -/
def Installation.step (state : Installation) : Command → Installation
  | .cycle environment random config credentials =>
      match state.volume.call environment config with
      | (.error _, volume) => { state with volume }
      | (.ok _, volume) =>
          match ensureCredentials (credentialsPath state.credentials) random.token with
          | .ok (some written) => ⟨volume, (credentials.atomicWrite state.credentials (some written)).2⟩
          | _ => { state with volume }
  | .rotate random credentials =>
      match state.volume.path, state.credentials with
      | .file _, some _ =>
          let written := some (freshCredentials random.token)
          { state with credentials := (credentials.atomicWrite state.credentials written).2 }
      | _, _ => state

/-- A new volume after some commands. -/
def Installation.after (commands : List Command) : Installation :=
  commands.foldl Installation.step .empty

end

/-- `export-key.py` on the two files, `none` where it raises. -/
def exportMain (config : List UInt8) (credentials : List Char) : Option JsString :=
  match loads config, exportedCredentials credentials with
  | some (.obj members), some (username, password) =>
      match get members "host", get members "port" with
      | some (.str host), some (.num (.ofNat port) 0) =>
          (fromUtf16 host).map fun host => exportKey host port username password
      | _, _ => none
  | _, _ => none

/-! ## A drawn token -/

theorem length_sextets_eq (bytes : List UInt8) :
    (sextets bytes).length = (4 * bytes.length + 2) / 3 := by
  induction bytes using sextets.induct with
  | case1 => rfl
  | case2 a => simp [sextets]
  | case3 a b => simp [sextets]
  | case4 a b c rest ih =>
      simp only [sextets, List.length_cons, ih]
      omega

/-- A character of a token. -/
def isTokenChar (c : Char) : Bool :=
  c.toNat < 128 && (c.isAlphanum || c == '-' || c == '_')

theorem Random.token_eq (random : Random) :
    random.token = (sextets random.bytes).map fun n => Char.ofNat (urlsafeDigit n).toNat := by
  rw [Random.token, rdropWhile_urlsafe, List.map_map]
  rfl

theorem Random.length_token (random : Random) : random.token.length = 43 := by
  rw [random.token_eq, List.length_map, length_sextets_eq, random.length]

theorem Random.token_ne (random : Random) : random.token ≠ [] := by
  intro hnil
  have hlength := random.length_token
  simp [hnil] at hlength

theorem Random.token_chars (random : Random) : ∀ c ∈ random.token, isTokenChar c = true := by
  have hdigits : ∀ n < 64, isTokenChar (Char.ofNat (urlsafeDigit n).toNat) = true := by decide
  intro c hc
  rw [random.token_eq] at hc
  rcases List.mem_map.1 hc with ⟨n, hn, rfl⟩
  exact hdigits n (sextets_lt _ n hn)

/-- No character of a token means anything to a reader of the file. -/
theorem plain_of_isTokenChar {c : Char} (h : isTokenChar c = true) :
    c.toNat < 128 ∧ c ≠ ':' ∧ c ≠ '\r' ∧ c ≠ '\n' ∧ Python.isSpace c = false ∧
      isControl (unit c) = false := by
  have hall : ∀ n < 128, isTokenChar (Char.ofNat n) = true → Char.ofNat n ≠ ':' ∧
      Char.ofNat n ≠ '\r' ∧ Char.ofNat n ≠ '\n' ∧ Python.isSpace (Char.ofNat n) = false ∧
        isControl (unit (Char.ofNat n)) = false := by decide +kernel
  have hascii : c.toNat < 128 := by
    rw [isTokenChar, Bool.and_eq_true, decide_eq_true_eq] at h
    exact h.1
  have hchar := hall c.toNat hascii
  rw [Char.ofNat_toNat] at hchar
  exact ⟨hascii, hchar h⟩

/-! ## The file that the manager writes -/

/-- The user of that file. -/
def browserUser : List Char := ['b', 'r', 'o', 'w', 's', 'e', 'r']

theorem browser_eq : "browser:".toList = browserUser ++ [':'] := rfl

/-- `user:password` in that file. -/
def freshLine (token : List Char) : List Char := browserUser ++ ':' :: token

theorem freshCredentials_eq (token : List Char) :
    freshCredentials token = freshLine token ++ ['\n'] := by
  show "browser:".toList ++ token ++ ['\n'] = _
  rw [browser_eq, freshLine, List.append_assoc browserUser]
  rfl

theorem freshCredentials_inj {s t : List Char} (h : freshCredentials s = freshCredentials t) :
    s = t := by
  rw [freshCredentials_eq, freshCredentials_eq, freshLine, freshLine, List.append_assoc,
    List.append_assoc] at h
  have hrest := List.append_cancel_left h
  exact List.append_cancel_right (List.cons.inj hrest).2

section

variable (random : Random)

theorem Random.freshLine_plain : ∀ c ∈ freshLine random.token, c.toNat < 128 ∧ c ≠ '\r' ∧ c ≠ '\n' := by
  have hall : browserUser.all (fun c => c.toNat < 128 ∧ c ≠ '\r' ∧ c ≠ '\n') = true := by decide
  have hname : ∀ c ∈ browserUser, c.toNat < 128 ∧ c ≠ '\r' ∧ c ≠ '\n' :=
    fun c hc => of_decide_eq_true (List.all_eq_true.1 hall c hc)
  intro c hc
  rw [freshLine, List.mem_append, List.mem_cons] at hc
  rcases hc with hc | rfl | hc
  · exact hname c hc
  · decide
  · have hplain := plain_of_isTokenChar (random.token_chars c hc)
    exact ⟨hplain.1, hplain.2.2.1, hplain.2.2.2.1⟩

theorem Random.isCredentialText : IsCredentialText (freshLine random.token) := by
  refine ⟨fun c hc => (random.freshLine_plain c hc).2, browserUser, random.token, rfl,
    by decide, by decide, ?_⟩
  intro hnil
  have hlength := random.length_token
  simp [hnil] at hlength

theorem Random.isStripped : IsStripped (freshLine random.token) := by
  constructor
  · intro c hc
    have hhead : (freshLine random.token).head? = some 'b' := rfl
    obtain rfl := Option.some.inj (hhead.symm.trans hc)
    decide
  · intro c hc
    rw [freshLine, List.getLast?_append_of_ne_nil _ (List.cons_ne_nil _ _),
      List.getLast?_cons_of_ne_nil random.token_ne] at hc
    exact (plain_of_isTokenChar (random.token_chars c (List.mem_of_getLast? hc))).2.2.2.2.1

/-- The manager keeps the file. -/
theorem Random.ensureCredentials_fresh (token : List Char) :
    ensureCredentials (.file (freshCredentials random.token)) token = .ok none := by
  have hline : ∀ c ∈ freshLine random.token, c ≠ '\r' ∧ c ≠ '\n' :=
    fun c hc => (random.freshLine_plain c hc).2
  have htrim : trimLineEnd (universalNewlines (freshCredentials random.token)) =
      freshLine random.token := by
    rw [freshCredentials_eq]
    have hending : ['\n'] ∈ lineEndings := by simp [lineEndings]
    rcases universalNewlines_line hline hending with h | h
    · rw [h]
      exact (trimLineEnd_line hline).1
    · rw [h]
      exact (trimLineEnd_line hline).2
  have hany : (freshLine random.token).any (fun c => c == '\r' || c == '\n') = false := by
    rw [List.any_eq_false]
    intro c hc
    simpa using hline c hc
  have hsplit : splitOnce (freshLine random.token) ':' = some (browserUser, random.token) :=
    splitFirst_eq_some.2 ⟨rfl, by decide⟩
  have hcolon : (freshLine random.token).contains ':' = true := by simp [freshLine]
  have hparts : (browserUser.isEmpty || random.token.isEmpty) = false := by
    rw [Bool.or_eq_false_iff]
    refine ⟨rfl, ?_⟩
    rw [List.isEmpty_eq_false_iff]
    exact random.token_ne
  simp only [ensureCredentials, htrim, hany, hcolon, hsplit, hparts]
  rfl

/-- The key gets its two halves, -/
theorem Random.exportedCredentials_fresh :
    exportedCredentials (freshCredentials random.token) = some (browserUser, random.token) := by
  rw [exportedCredentials, freshCredentials_eq,
    strip_universalNewlines (fun c hc => (random.freshLine_plain c hc).2) (by simp [lineEndings]),
    strip_eq_self.2 random.isStripped]
  exact splitFirst_eq_some.2 ⟨rfl, by decide⟩

/-- and so does the server. -/
theorem Random.readCredentials_fresh :
    readCredentials (.ok (utf8 (freshCredentials random.token))) =
      .ok (utf8 browserUser, utf8 random.token) := by
  refine readCredentials_utf8.2 ⟨_, _, rfl, rfl, by decide, random.isCredentialText, ['\n'], ?_, ?_⟩
  · simp [serverTextEndings]
  · exact freshCredentials_eq _

end

/-! ## The length of a key -/

theorem length_escape_le (u : UInt16) : (Json.escape u).length ≤ 6 := by
  simp only [Json.escape]
  split_ifs <;> simp

theorem length_dumpsString_le {s : List Char} (h : ∀ c ∈ s, c.toNat < 128) :
    (dumpsString s).length ≤ 6 * s.length + 2 := by
  have hflat : ∀ t : CodeUnits, (t.flatMap Json.escape).length ≤ 6 * t.length := by
    intro t
    induction t with
    | nil => simp
    | cons u t ih =>
        have hu := length_escape_le u
        rw [List.flatMap_cons, List.length_append, List.length_cons]
        omega
  have hs := hflat (s.flatMap utf16)
  rw [utf16_ascii h, List.length_map] at hs
  rw [dumpsString, Json.encodeString, utf16_ascii h, List.length_append, List.length_cons,
    List.length_singleton]
  omega

/-- A key of ASCII values is not much longer than they are. -/
theorem length_exportKey_le {host username password : List Char} {port : Nat} (hport : port ≤ 65535)
    (hhost : ∀ c ∈ host, c.toNat < 128) (husername : ∀ c ∈ username, c.toNat < 128)
    (hpassword : ∀ c ∈ password, c.toNat < 128) :
    (exportKey host port username password).length ≤
      8 * (host.length + username.length + password.length) + 200 := by
  have hpayload : (keyPayload host port username password).length ≤
      6 * (host.length + username.length + password.length) + 100 := by
    have hdigits : (Json.encodeNat port).length ≤ 5 := by
      rw [Json.encodeNat, List.length_map]
      exact Nat.toDigits_length 10 port 5 (by decide) (by omega)
    have h₁ := length_dumpsString_le hhost
    have h₂ := length_dumpsString_le husername
    have h₃ := length_dumpsString_le hpassword
    have hv : (Json.encodeString (ascii "v")).length = 3 := by decide
    have hh : (Json.encodeString (ascii "host")).length = 6 := by decide
    have hp : (Json.encodeString (ascii "port")).length = 6 := by decide
    have hu : (Json.encodeString (ascii "username")).length = 10 := by decide
    have hw : (Json.encodeString (ascii "password")).length = 10 := by decide
    have hone : (Json.encodeNat 1).length = 1 := by decide
    simp only [keyPayload, Json.encodeObject, List.map_cons, List.map_nil, Json.commas, Json.member,
      List.length_append, List.length_cons, List.length_nil]
    omega
  have hascii : ∀ c ∈ asciiText (keyPayload host port username password), c.toNat < 128 := by
    intro c hc
    rcases List.mem_map.1 hc with ⟨u, hu, rfl⟩
    have hrange := keyPayload_printable host port username password u hu
    have hvalue : ∀ n < 127, (Char.ofNat n).toNat < 128 := by decide
    exact hvalue u.toNat (by omega)
  have hprefix : (js "shbvpn1:").length = 8 := by decide
  rw [exportKey, rdropWhile_urlsafe, List.length_append, hprefix, List.length_map, List.length_map,
    length_sextets_eq, utf8_ascii hascii, List.length_map, asciiText, List.length_map]
  omega

/-! ## In the extension -/

section

variable [Platform]

/-- A key that was printed is as good as the connection in it, with any white space around. -/
theorem parseConnectionKey_printed (hdecode : DecodesKeys) {c : Connection} (hport : c.port < 2 ^ 53)
    {host username password : List Char} (hhost : c.host = host.flatMap utf16)
    (husername : c.username = username.flatMap utf16) (hpassword : c.password = password.flatMap utf16)
    (hlength : (exportKey host c.port username password).length ≤ maxKeyLength)
    {before after : JsString} (hbefore : ∀ u ∈ before, isSpace u = true)
    (hafter : ∀ u ∈ after, isSpace u = true) :
    parseConnectionKey (.str (before ++ exportKey host c.port username password ++ after)) = .ok c ↔
      c.Valid := by
  set payload := keyPayload host c.port username password with hpayload
  set encoded := ((sextets (utf8 (asciiText payload))).map urlsafeDigit).map UInt8.toUInt16
    with hencoded
  have hkey : exportKey host c.port username password = keyPrefix ++ encoded := by
    rw [exportKey, rdropWhile_urlsafe]
    rfl
  have hchars : ∀ u ∈ encoded, (isLower u || isUpper u || isDigit u || u == unit '_' ||
      u == unit '-') = true ∧ isSpace u = false := by
    intro u hu
    rw [hencoded, List.map_map] at hu
    rcases List.mem_map.1 hu with ⟨n, hn, rfl⟩
    exact urlsafeDigit_key (sextets_lt _ n hn)
  have hnonempty : encoded ≠ [] := by
    have htext : asciiText payload ≠ [] := List.cons_ne_nil _ _
    have hbytes : sextets (utf8 (asciiText payload)) ≠ [] :=
      sextets_ne_nil fun hnil => htext (utf8_eq_nil.1 hnil)
    rw [hencoded]
    simpa using hbytes
  have htrim : trim (before ++ (keyPrefix ++ encoded) ++ after) = keyPrefix ++ encoded := by
    refine trim_surrounded hbefore hafter (by simp [hnonempty]) ?_ ?_
    · intro u hu
      have hhead : (keyPrefix ++ encoded).head? = some (unit 's') := rfl
      obtain rfl := Option.some.inj (hhead.symm.trans hu)
      decide
    · intro u hu
      rw [List.getLast?_append_of_ne_nil _ hnonempty] at hu
      exact (hchars u (List.mem_of_getLast? hu)).2
  have hdecoded : Platform.decodeKey encoded = .ok c.toJs :=
    hdecode _ _ (decodeKey_keyPayload hport hhost husername hpassword)
  -- all checks before the connection's own are passed
  have hchecked : parseConnectionKey (.str (before ++ (keyPrefix ++ encoded) ++ after)) = .ok c ↔
      validateConnection c.toJs = .ok c := by
    rw [hkey] at hlength
    have hstart : (!keyPrefix.isPrefixOf (keyPrefix ++ encoded) ||
        decide ((keyPrefix ++ encoded).length > maxKeyLength)) = false := by
      have hpre : keyPrefix.isPrefixOf (keyPrefix ++ encoded) = true :=
        List.isPrefixOf_iff_prefix.2 (List.prefix_append _ _)
      simp only [hpre, Bool.not_true, Bool.false_or, decide_eq_false_iff_not]
      omega
    have halphabet : (encoded.isEmpty || !encoded.all fun u =>
        isLower u || isUpper u || isDigit u || u == unit '_' || u == unit '-') = false := by
      have hall : (encoded.all fun u =>
          isLower u || isUpper u || isDigit u || u == unit '_' || u == unit '-') = true :=
        List.all_eq_true.2 fun u hu => (hchars u hu).1
      rw [hall]
      simpa using hnonempty
    simp only [parseConnectionKey, htrim, hstart, List.drop_left, halphabet, hdecoded,
      Bool.false_eq_true, if_false, bind, Except.bind, pure, Except.pure]
    cases validateConnection c.toJs with
    | ok connection => exact Iff.rfl
    | error message =>
        simp only
        split <;> simp
  rw [hkey, hchecked]
  constructor
  · exact validateConnection_valid
  · exact validateConnection_toJs

/-- The connection of an installation. -/
def SavedConfig.connection (config : SavedConfig) (random : Random) : Connection :=
  ⟨config.host.flatMap utf16, config.port, browserUser.flatMap utf16, random.token.flatMap utf16⟩

omit [Platform] in
/-- The credentials that the manager writes pass the checks of the extension. -/
theorem Random.checked (random : Random) :
    checkUsername (.str (browserUser.flatMap utf16)) = .ok (browserUser.flatMap utf16) ∧
      checkPassword (.str (random.token.flatMap utf16)) = .ok (random.token.flatMap utf16) := by
  refine ⟨by decide +kernel, ?_⟩
  have hunits : random.token.flatMap utf16 = random.token.map unit :=
    utf16_ascii fun c hc => (plain_of_isTokenChar (random.token_chars c hc)).1
  have hcontrol : (random.token.map unit).any isControl = false := by
    rw [List.any_eq_false]
    intro u hu
    rcases List.mem_map.1 hu with ⟨c, hc, rfl⟩
    simp [(plain_of_isTokenChar (random.token_chars c hc)).2.2.2.2.2]
  rw [hunits, checkPassword, checkSecret, if_neg]
  simp [hcontrol, random.length_token]

variable [Ipv6]

/-- The extension takes the connection of any installation but that of a numeric domain. -/
theorem SavedConfig.Valid.connection_valid_iff {config : SavedConfig} (h : config.Valid)
    (random : Random) :
    (config.connection random).Valid ↔ config.kind = .ip ∨ isNumeric config.host = false := by
  have himportable := importable_iff h.host_chars h.length h.port
  have hvalue : isHostValue (config.host.map unit) = true ↔
      config.kind = .ip ∨ isNumeric config.host = false := by
    cases hkind : config.kind with
    | ip =>
        rcases h.ip hkind with ⟨a, hhost, -⟩
        rw [hhost]
        exact ⟨fun _ => Or.inl rfl, fun _ => isHostValue_ipv4Text a⟩
    | domain =>
        rw [(h.domain hkind).isHostValue_iff]
        exact ⟨Or.inr, fun hcase => hcase.resolve_left (by decide)⟩
  rw [← hvalue, ← himportable]
  constructor
  · intro hc
    exact ⟨hc.host, hc.lower, hc.port⟩
  · intro hi
    refine ⟨hi.valid, hi.lower, ?_, hi.port, random.checked.1, random.checked.2⟩
    intro u hu
    have hu' : u ∈ config.host.map unit := by
      rw [← utf16_ascii fun c hc => toNat_of_isHostChar (h.host_chars c hc)]
      exact hu
    rcases List.mem_map.1 hu' with ⟨c, hc, rfl⟩
    exact isHostUnit_unit (h.host_chars c hc)

end

/-! ## After any run -/

section

variable [Ipv6]

omit [Ipv6] in
/-- What `export-key.py` prints for a volume. -/
theorem exportMain_data {config : SavedConfig} (hbound : config.port ≤ 65535) (random : Random) :
    exportMain config.data (freshCredentials random.token) =
      some (exportKey config.host config.port browserUser random.token) := by
  rcases config.get_members with ⟨-, hhost, hport, -⟩
  have hport' : get config.members "port" = some (.num (.ofNat config.port) 0) := hport
  simp only [exportMain, SavedConfig.loads_data hbound, random.exportedCredentials_fresh, hhost, hport',
    fromUtf16_utf16]
  rfl

variable [Tables]

/-- The call of `ensure_config` that a command makes. -/
def Command.configures : Command → Option (Environment × Disk)
  | .cycle environment _ config _ => some (environment, config)
  | .rotate _ _ => none

omit [Ipv6] [Tables] in
/-- `ensure_credentials` writes only where there is nothing. -/
theorem ensureCredentials_writes {credentials : Option (List Char)} {token written : List Char}
    (h : ensureCredentials (credentialsPath credentials) token = .ok (some written)) :
    credentials = none ∧ written = freshCredentials token := by
  cases credentials with
  | none =>
      rw [credentialsPath, ensureCredentials] at h
      exact ⟨rfl, (Option.some.inj (Except.ok.inj h)).symm⟩
  | some content =>
      simp only [credentialsPath, ensureCredentials] at h
      split at h
      · cases h
      split at h
      · cases h
      split at h
      · cases h
      · cases h

/-- What a step leaves: the volume after its call, and credentials that were there, or that
it has drawn. -/
theorem Installation.step_cases (state : Installation) (command : Command) :
    (state.step command).volume =
        (command.configures.toList.foldl (fun v call => (v.call call.1 call.2).2) state.volume) ∧
      ((state.step command).credentials = state.credentials ∨
        (state.step command).credentials = some (freshCredentials command.random.token)) := by
  cases command with
  | cycle environment random config credentials =>
      simp only [Installation.step, Command.configures, Option.toList_some, List.foldl_cons,
        List.foldl_nil]
      split
      · rename_i e volume hcall
        exact ⟨by rw [hcall], Or.inl rfl⟩
      · rename_i saved volume hcall
        split
        · -- credentials are drawn, and saved if `os.replace` is done
          rename_i written hwritten
          refine ⟨by rw [hcall], ?_⟩
          simp only [Disk.atomicWrite_snd, (ensureCredentials_writes hwritten).2]
          split
          · exact Or.inr rfl
          · exact Or.inl rfl
        · exact ⟨by rw [hcall], Or.inl rfl⟩
  | rotate random credentials =>
      simp only [Installation.step, Command.configures, Option.toList_none, List.foldl_nil]
      split
      · simp only [Disk.atomicWrite_snd]
        split
        · exact ⟨trivial, Or.inr rfl⟩
        · exact ⟨trivial, Or.inl rfl⟩
      · exact ⟨rfl, Or.inl rfl⟩

theorem Installation.after_concat (commands : List Command) (command : Command) :
    Installation.after (commands ++ [command]) = (Installation.after commands).step command := by
  rw [Installation.after, List.foldl_append]
  rfl

/-- The volume has seen the calls of the cycles, -/
theorem Installation.after_volume (commands : List Command) :
    (Installation.after commands).volume = Volume.after (commands.filterMap Command.configures) := by
  induction commands using List.reverseRecOn with
  | nil => rfl
  | append_singleton commands command ih =>
      rw [Installation.after_concat, ((Installation.after commands).step_cases command).1, ih,
        List.filterMap_append, Volume.after, Volume.after, List.foldl_append]
      cases command with
      | cycle environment random config credentials => rfl
      | rotate random credentials => rfl

/-- and its credentials were drawn by one of the commands. -/
theorem Installation.after_credentials {commands : List Command} {content : List Char}
    (h : (Installation.after commands).credentials = some content) :
    ∃ command ∈ commands, content = freshCredentials command.random.token := by
  induction commands using List.reverseRecOn with
  | nil => cases h
  | append_singleton commands command ih =>
      rw [Installation.after_concat] at h
      rcases ((Installation.after commands).step_cases command).2 with hsame | hdrawn
      · rw [hsame] at h
        rcases ih h with ⟨earlier, hmem, hcontent⟩
        exact ⟨earlier, by simp [hmem], hcontent⟩
      · rw [hdrawn] at h
        exact ⟨command, by simp, (Option.some.inj h).symm⟩

/-- After a rotation the credentials are those that it has drawn, if it has replaced the
file, and else the ones from before. -/
theorem Installation.credentials_of_rotate {commands : List Command} {random : Random} {disk : Disk}
    {bytes : List UInt8} {content : List Char}
    (hfile : (Installation.after (commands ++ [.rotate random disk])).volume.path = .file bytes)
    (hcontent : (Installation.after (commands ++ [.rotate random disk])).credentials = some content) :
    (disk.replaces = true → content = freshCredentials random.token) ∧
      (disk.replaces = false → (Installation.after commands).credentials = some content) := by
  rw [Installation.after_concat] at hfile hcontent
  rw [((Installation.after commands).step_cases (.rotate random disk)).1] at hfile
  have hpath : (Installation.after commands).volume.path = .file bytes := hfile
  rw [Installation.step, hpath] at hcontent
  split at hcontent
  · simp only [Disk.atomicWrite_snd] at hcontent
    constructor
    · intro hreplaces
      rw [if_pos hreplaces] at hcontent
      exact (Option.some.inj hcontent).symm
    · intro hkeeps
      rw [hkeeps] at hcontent
      exact hcontent
  · rename_i hnot
    cases hcredentials : (Installation.after commands).credentials with
    | none =>
        rw [hcredentials] at hcontent
        cases hcontent
    | some old => exact absurd hcredentials (hnot bytes old rfl)

/-- After a cycle the credentials are the same, if there were any. -/
theorem Installation.credentials_of_cycle {commands : List Command} {environment : Environment}
    {random : Random} {config credentials : Disk} {old : List Char}
    (hold : (Installation.after commands).credentials = some old) :
    (Installation.after (commands ++ [.cycle environment random config credentials])).credentials =
      some old := by
  rw [Installation.after_concat, Installation.step]
  split
  · exact hold
  · split
    · rename_i written hwritten
      rw [hold] at hwritten
      cases (ensureCredentials_writes hwritten).1
    · exact hold

variable [Platform] [Unicode] {Key Tag : Type} [DecidableEq Tag]

omit [Ipv6] [Tables] [Platform] in
/-- Of all tokens a server authorizes the one in its file. -/
theorem authorized_token {hmac : Hmac Key Tag} (hcollision : ∀ key, Function.Injective (hmac key))
    (key : Key) (random other : Random) :
    authorized hmac ⟨key, hmac key (credentialLine (utf8 browserUser) (utf8 random.token))⟩
        (basicHeader (utf8 browserUser) (utf8 other.token)) = true ↔
      other.token = random.token := by
  constructor
  · intro h
    rcases only_of_authorized hmac hcollision h with ⟨scheme, encoded, hcut, -, hdecoded⟩
    rw [cut_basicHeader] at hcut
    obtain ⟨-, rfl⟩ := Prod.mk.inj (Option.some.inj hcut)
    rw [trimSpace_base64Encode, base64Decode_encode] at hdecoded
    have hline := Option.some.inj hdecoded
    rw [credentialLine_utf8, credentialLine_utf8] at hline
    have htext := List.append_cancel_left (utf8_injective hline)
    exact (List.cons.inj htext).2
  · intro h
    rw [h, authorized_basicHeader, credentialLine_utf8]
    have hascii : ∀ c ∈ browserUser ++ ':' :: random.token, c.toNat < 128 :=
      fun c hc => (random.freshLine_plain c hc).1
    rw [utf8_ascii hascii, List.length_map, List.length_append, List.length_cons, random.length_token]
    decide

/-- The key that is printed opens the proxy, and no other does. After any cycles and rotations
of a volume, the key of its two files imports as the connection of the installation, unless
that is at a domain of digits and dots; a server that is started on the files authorizes
exactly the credentials in it. These are what a rotation has drawn that replaced the file, so
that a key from before is refused; any other rotation keeps them, and so does a cycle. -/
theorem printed_key_authenticates {hmac : Hmac Key Tag} (hdecode : DecodesKeys)
    (hcollision : ∀ key, Function.Injective (hmac key)) {commands : List Command}
    {bytes : List UInt8} {content : List Char}
    (hfile : (Installation.after commands).volume.path = .file bytes)
    (hcontent : (Installation.after commands).credentials = some content) :
    ∃ (config : SavedConfig) (random : Random) (printed : JsString), bytes = config.data ∧
      content = freshCredentials random.token ∧ exportMain bytes content = some printed ∧
      (∀ before after : JsString, (∀ u ∈ before, isSpace u = true) → (∀ u ∈ after, isSpace u = true) →
        (parseConnectionKey (.str (before ++ printed ++ after)) = .ok (config.connection random) ↔
          config.kind = .ip ∨ isNumeric config.host = false)) ∧
      (∃ user password, readCredentials (.ok (utf8 content)) = .ok (user, password) ∧
        ∀ key auth, newProxy hmac (.ok key) user password = .ok auth → ∀ other : Random,
          authorized hmac auth (basicHeader (utf8 browserUser) (utf8 other.token)) = true ↔
            other.token = random.token) ∧
      (∀ earlier drawn disk, commands = earlier ++ [.rotate drawn disk] →
        (disk.replaces = true → random.token = drawn.token) ∧
          (disk.replaces = false → (Installation.after earlier).credentials = some content)) ∧
      ∀ earlier environment drawn disk disk' old,
        commands = earlier ++ [.cycle environment drawn disk disk'] →
          (Installation.after earlier).credentials = some old → content = old := by
  rw [Installation.after_volume] at hfile
  rcases Volume.valid_of_file hfile with ⟨config, rfl, hvalid⟩
  rcases Installation.after_credentials hcontent with ⟨command, -, rfl⟩
  have hport := checkPort_range hvalid.port
  refine ⟨config, command.random, _, rfl, rfl, exportMain_data hport command.random, ?_, ?_, ?_, ?_⟩
  · intro before after hbefore hafter
    have hascii : browserUser.all (fun c => c.toNat < 128) = true := by decide
    have hlength := length_exportKey_le hport (fun c hc => toNat_of_isHostChar (hvalid.host_chars c hc))
      (fun c hc => of_decide_eq_true (List.all_eq_true.1 hascii c hc))
      fun c hc => (plain_of_isTokenChar (command.random.token_chars c hc)).1
    have hhost := hvalid.length.2
    have htoken := command.random.length_token
    have huser : browserUser.length = 7 := rfl
    have hmax : maxKeyLength = 4096 := rfl
    have hshort : (exportKey config.host config.port browserUser command.random.token).length ≤
        maxKeyLength := by omega
    rw [← hvalid.connection_valid_iff command.random]
    exact parseConnectionKey_printed hdecode (c := config.connection command.random)
      (hport.trans_lt (by decide)) rfl rfl rfl hshort hbefore hafter
  · refine ⟨_, _, command.random.readCredentials_fresh, ?_⟩
    intro key auth hauth other
    obtain rfl := Except.ok.inj hauth
    exact authorized_token hcollision key command.random other
  · rintro earlier drawn disk rfl
    rw [← Installation.after_volume] at hfile
    rcases Installation.credentials_of_rotate hfile hcontent with ⟨hdrawn, hkept⟩
    exact ⟨fun hreplaces => freshCredentials_inj (hdrawn hreplaces), hkept⟩
  · rintro earlier environment drawn disk disk' old rfl hold
    rw [Installation.credentials_of_cycle hold] at hcontent
    exact (Option.some.inj hcontent).symm

end

section

attribute [local instance] Platform.decoding Ipv6.sample Tables.ascii Unicode.sample

/-- The same byte 32 times. -/
def Random.repeated (b : UInt8) : Random := ⟨List.replicate 32 b, List.length_replicate⟩

/-- A domain is set up, and its key is rotated. -/
def rotatedOnce : List Command :=
  [.cycle (.domain "proxy.test") (.repeated 1) .works .works, .rotate (.repeated 2) .works]

theorem printed_key_authenticates_sample :
    ∃ (config : SavedConfig) (random : Random) (printed : JsString),
      exportMain (SavedConfig.data ⟨.domain, "proxy.test".toList, 443, []⟩)
        (freshCredentials (Random.repeated 2).token) = some printed ∧
      (parseConnectionKey (.str printed) = .ok (config.connection random) ↔
        config.kind = .ip ∨ isNumeric config.host = false) ∧
      random.token = (Random.repeated 2).token := by
  have hfile : (Installation.after rotatedOnce).volume.path =
      .file (SavedConfig.data ⟨.domain, "proxy.test".toList, 443, []⟩) := by decide +kernel
  have hcontent : (Installation.after rotatedOnce).credentials =
      some (freshCredentials (Random.repeated 2).token) := by decide +kernel
  have hcollision : ∀ key, Function.Injective (Hmac.transparent key) := fun _ _ _ h => h
  rcases printed_key_authenticates Platform.decoding_decodes hcollision hfile hcontent with
    ⟨config, random, printed, -, -, hprinted, hparse, -, hlatest, -⟩
  have hplain := hparse [] [] (by simp) (by simp)
  rw [List.nil_append, List.append_nil] at hplain
  exact ⟨config, random, printed, hprinted, hplain,
    (hlatest [.cycle (.domain "proxy.test") (.repeated 1) .works .works] _ _ rfl).1 rfl⟩

end

end BrowserVpn
