import BrowserVpn.Core.KeyDecoder
import Mathlib.Data.List.DropRight

/-!
# Installer.ExportKey — the key that the extension imports

`export-key.py` packs a connection into a line of ASCII, in Python; the extension
unpacks it, in JavaScript. The connection comes back as it was.
-/

namespace BrowserVpn

open Data

/-! ## Encoder -/

/-- A Python string for `json.dumps`. What is outside the basic plane is escaped as two
surrogates. -/
def dumpsString (s : List Char) : CodeUnits := Json.encodeString (s.flatMap utf16)

/-- `json.dumps(payload, separators=(",", ":"), ensure_ascii=True)`. -/
def keyPayload (host : List Char) (port : Nat) (username password : List Char) : CodeUnits :=
  Json.encodeObject
    [(ascii "v", Json.encodeNat 1), (ascii "host", dumpsString host),
      (ascii "port", Json.encodeNat port), (ascii "username", dumpsString username),
      (ascii "password", dumpsString password)]

/-- A text in ASCII as a Python string. -/
def asciiText (s : CodeUnits) : List Char := s.map fun u => Char.ofNat u.toNat

/-- `base64.urlsafe_b64encode`. -/
def urlsafeB64encode (bytes : List UInt8) : List UInt8 :=
  (base64Encode bytes).map fun c => if c = 43 then 45 else if c = 47 then 95 else c

/-- The line that `export-key.py` prints. -/
def exportKey (host : List Char) (port : Nat) (username password : List Char) : JsString :=
  let encoded := urlsafeB64encode (utf8 (asciiText (keyPayload host port username password)))
  js "shbvpn1:" ++ (encoded.rdropWhile fun c => c == base64Pad).map UInt8.toUInt16

/-! ## ASCII -/

theorem keyPayload_printable (host : List Char) (port : Nat) (username password : List Char) :
    Json.Printable (keyPayload host port username password) := by
  refine Json.printable_encodeObject fun t ht => ?_
  simp only [List.mem_cons, List.not_mem_nil, or_false] at ht
  rcases ht with rfl | rfl | rfl | rfl | rfl
  · exact Json.printable_encodeNat 1
  · exact Json.printable_encodeString _
  · exact Json.printable_encodeNat port
  · exact Json.printable_encodeString _
  · exact Json.printable_encodeString _

/-- A text in ASCII has the same units in both languages. -/
theorem asciiText_utf16 {s : CodeUnits} (h : Json.Printable s) :
    (asciiText s).flatMap utf16 = s := by
  induction s with
  | nil => rfl
  | cons u s ih =>
      have hu : u.toNat < 128 := by
        have := (h u (by simp)).2
        omega
      have hchars : ∀ n < 128, (Char.ofNat n).toNat = n := by decide
      have hvalid := hchars u.toNat hu
      have hone : utf16 (Char.ofNat u.toNat) = [u] := by
        rw [utf16, hvalid, if_pos (by omega)]
        exact congrArg (fun w => [w]) UInt16.ofNat_toNat
      rw [asciiText, List.map_cons, List.flatMap_cons, hone]
      exact congrArg (u :: ·) (ih fun w hw => h w (by simp [hw]))

/-! ## The round trip -/

/-- The URL-safe digit of a value. -/
def urlsafeDigit (n : Nat) : UInt8 :=
  if base64Digit n = 43 then 45 else if base64Digit n = 47 then 95 else base64Digit n

theorem urlsafeDigit_ne_pad {n : Nat} (h : n < 64) : urlsafeDigit n ≠ base64Pad := by
  revert n
  decide

/-- Without its padding a code is the digits of its values. -/
theorem rdropWhile_urlsafe (bytes : List UInt8) :
    ((urlsafeB64encode bytes).rdropWhile fun c => c == base64Pad) =
      (sextets bytes).map urlsafeDigit := by
  have hmap : urlsafeB64encode bytes =
      (sextets bytes).map urlsafeDigit ++ List.replicate (padding bytes) base64Pad := by
    rw [urlsafeB64encode, base64Encode_eq, List.map_append, List.map_map, List.map_replicate]
    rfl
  have hpads : ∀ k, ((sextets bytes).map urlsafeDigit ++ List.replicate k base64Pad).rdropWhile
      (fun c => c == base64Pad) = (sextets bytes).map urlsafeDigit := by
    intro k
    induction k with
    | zero =>
        rw [List.replicate_zero, List.append_nil, List.rdropWhile_eq_self_iff]
        intro hne hlast
        obtain ⟨n, hn, hdigit⟩ := List.mem_map.1 (List.getLast_mem hne)
        exact urlsafeDigit_ne_pad (sextets_lt bytes n hn) (hdigit.trans (beq_iff_eq.1 hlast))
    | succ k ih =>
        rw [List.replicate_succ', ← List.append_assoc, List.rdropWhile_concat_pos _ _ _ rfl, ih]
  rw [hmap, hpads]

/-- The extension turns the digits back into those that `atob` reads. -/
theorem standard_urlsafeDigit {n : Nat} (h : n < 64) :
    (fun u => if u = unit '_' then unit '/' else u)
      ((fun u => if u = unit '-' then unit '+' else u) (urlsafeDigit n).toUInt16) =
      (base64Digit n).toUInt16 := by
  revert n
  decide

theorem urlsafeDigit_key {n : Nat} (h : n < 64) :
    (let u := (urlsafeDigit n).toUInt16
     isLower u || isUpper u || isDigit u || u == unit '_' || u == unit '-') = true ∧
      isSpace (urlsafeDigit n).toUInt16 = false := by
  revert n
  decide

/-- The payload of a key, decoded. -/
theorem decodeKey_sextets {text : List Char} {v : Json} (h : text.head? ≠ some '\uFEFF')
    (hparse : Json.parse .standard (text.flatMap utf16) = some v) :
    decodeKey (((sextets (utf8 text)).map urlsafeDigit).map UInt8.toUInt16) =
      some (jsonToJs v) := by
  have hback : ((((sextets (utf8 text)).map urlsafeDigit).map UInt8.toUInt16).map
      fun u => if u = unit '-' then unit '+' else u).map
        (fun u => if u = unit '_' then unit '/' else u) =
      (sextets (utf8 text)).map fun n => (base64Digit n).toUInt16 := by
    simp only [List.map_map]
    refine List.map_congr_left fun n hn => ?_
    exact standard_urlsafeDigit (sextets_lt _ n hn)
  have hlength : ((sextets (utf8 text)).map fun n => (base64Digit n).toUInt16).length =
      (sextets (utf8 text)).length := List.length_map _
  have hpad := padQuanta_sextets (utf8 text) hlength
  simp only [decodeKey, hback, hpad, atob_sextets, textDecode_utf8 h, jsonParse, hparse,
    Option.map_some]

/-- The payload is read as the object that it was made of. -/
theorem parse_keyPayload (host : List Char) (port : Nat) (username password : List Char) :
    Json.parse .standard (keyPayload host port username password) =
      some (.obj [(ascii "v", .num 1 0), (ascii "host", .str (host.flatMap utf16)),
        (ascii "port", .num port 0), (ascii "username", .str (username.flatMap utf16)),
        (ascii "password", .str (password.flatMap utf16))]) := by
  refine (Json.parses_encodeObject ?_).parse_eq
  refine .cons ⟨rfl, Json.parses_encodeNat (Json.Dialect.standard_takes 1)⟩
    (.cons ⟨rfl, Json.parses_encodeString _ _⟩
    (.cons ⟨rfl, Json.parses_encodeNat (Json.Dialect.standard_takes port)⟩
    (.cons ⟨rfl, Json.parses_encodeString _ _⟩
      (.cons ⟨rfl, Json.parses_encodeString _ _⟩ .nil))))

/-- That object is the connection. -/
theorem jsonToJs_payload {c : Connection} (hport : c.port < 2 ^ 53) :
    jsonToJs (.obj [(ascii "v", .num 1 0), (ascii "host", .str c.host),
      (ascii "port", .num c.port 0), (ascii "username", .str c.username),
      (ascii "password", .str c.password)]) = c.toJs := by
  have hone : jsonToJs (.num 1 0) = .num (some 1) := jsonToJs_nat (n := 1) (by decide)
  have hnumber := jsonToJs_nat hport
  have hnew : ∀ (fields : List (JsString × JsVal)) (key : JsString) (v : JsVal),
      (fields.any fun f => f.1 == key) = false → setField fields key v = fields ++ [(key, v)] := by
    intro fields key v hany
    rw [setField, hany]
    rfl
  rw [jsonToJs, membersToJs, hone, hnew _ _ _ rfl, membersToJs, jsonToJs,
    hnew _ _ _ rfl, membersToJs, hnumber, hnew _ _ _ rfl, membersToJs, jsonToJs, hnew _ _ _ rfl,
    membersToJs, jsonToJs, hnew _ _ _ rfl, membersToJs]
  rfl

/-- White space around a text without any at its ends is trimmed off. -/
theorem trim_surrounded {before text after : JsString} (hbefore : ∀ u ∈ before, isSpace u = true)
    (hafter : ∀ u ∈ after, isSpace u = true) (hne : text ≠ [])
    (hfirst : ∀ u ∈ text.head?, isSpace u = false)
    (hlast : ∀ u ∈ text.getLast?, isSpace u = false) : trim (before ++ text ++ after) = text := by
  have hkeep : ∀ s rest : JsString, s ≠ [] → (∀ u ∈ s.head?, isSpace u = false) →
      (s ++ rest).dropWhile isSpace = s ++ rest := by
    intro s rest hs hhead
    cases s with
    | nil => exact absurd rfl hs
    | cons u s => exact List.dropWhile_cons_of_neg (by simp [hhead u rfl])
  have hfront : (before ++ text ++ after).dropWhile isSpace = text ++ after := by
    rw [List.append_assoc, List.dropWhile_append_of_pos hbefore, hkeep _ _ hne hfirst]
  have hback : (text ++ after).reverse.dropWhile isSpace = text.reverse := by
    rw [List.reverse_append, List.dropWhile_append_of_pos (by simpa using hafter)]
    have hrest := hkeep text.reverse [] (by simpa using hne) (by simpa using hlast)
    simpa using hrest
  rw [trim, hfront, hback, List.reverse_reverse]

theorem checkPort_range {n : Nat} (h : checkPort (.num (some n)) = .ok n) : n ≤ 65535 := by
  have hinteger : (JsVal.num (some (n : ℚ))).integer? = some (n : Int) := by simp [JsVal.integer?]
  rw [checkPort, hinteger] at h
  simp only at h
  split at h
  · cases h
  · omega

theorem sextets_ne_nil {bytes : List UInt8} (h : bytes ≠ []) : sextets bytes ≠ [] := by
  intro hnil
  have hdecode := decodeSextets_sextets bytes
  rw [hnil] at hdecode
  exact h (Option.some.inj hdecode).symm

section

variable [Platform]

omit [Platform] in
/-- What the platform makes of an exported payload. -/
theorem decodeKey_keyPayload {c : Connection} (hport : c.port < 2 ^ 53)
    {host username password : List Char} (hhost : c.host = host.flatMap utf16)
    (husername : c.username = username.flatMap utf16)
    (hpassword : c.password = password.flatMap utf16) :
    decodeKey (((sextets (utf8 (asciiText (keyPayload host c.port username password)))).map
      urlsafeDigit).map UInt8.toUInt16) = some c.toJs := by
  have hmark : (asciiText (keyPayload host c.port username password)).head? ≠ some '\uFEFF' := by
    have hbrace : (asciiText (keyPayload host c.port username password)).head? = some '\x7b' := rfl
    rw [hbrace]
    decide
  have hparse := parse_keyPayload host c.port username password
  rw [← asciiText_utf16 (keyPayload_printable host c.port username password)] at hparse
  rw [decodeKey_sextets hmark hparse, ← hhost, ← husername, ← hpassword, jsonToJs_payload hport]

/-- A connection comes back from its key, with any white space around it. -/
theorem parseConnectionKey_exportKey (hdecode : DecodesKeys) {value : JsVal} {c : Connection}
    (hvalid : validateConnection value = .ok c) {host username password : List Char}
    (hhost : c.host = host.flatMap utf16) (husername : c.username = username.flatMap utf16)
    (hpassword : c.password = password.flatMap utf16)
    (hlength : (exportKey host c.port username password).length ≤ maxKeyLength)
    {before after : JsString} (hbefore : ∀ u ∈ before, isSpace u = true)
    (hafter : ∀ u ∈ after, isSpace u = true) :
    parseConnectionKey (.str (before ++ exportKey host c.port username password ++ after)) =
      .ok c := by
  have hc := validateConnection_valid hvalid
  have hport : c.port < 2 ^ 53 := (checkPort_range hc.port).trans_lt (by decide)
  set payload := keyPayload host c.port username password with hpayload
  set encoded := ((sextets (utf8 (asciiText payload))).map urlsafeDigit).map UInt8.toUInt16
    with hencoded
  have hkey : exportKey host c.port username password = keyPrefix ++ encoded := by
    rw [exportKey, rdropWhile_urlsafe]
    rfl
  -- every character after the prefix is one of the URL-safe alphabet
  have hchars : ∀ u ∈ encoded, (isLower u || isUpper u || isDigit u || u == unit '_' ||
      u == unit '-') = true ∧ isSpace u = false := by
    intro u hu
    rw [hencoded, List.map_map] at hu
    obtain ⟨n, hn, rfl⟩ := List.mem_map.1 hu
    exact urlsafeDigit_key (sextets_lt _ n hn)
  have hnonempty : encoded ≠ [] := by
    have htext : asciiText payload ≠ [] := List.cons_ne_nil _ _
    have hbytes : sextets (utf8 (asciiText payload)) ≠ [] :=
      sextets_ne_nil fun hnil => htext (utf8_eq_nil.1 hnil)
    rw [hencoded]
    simpa using hbytes
  have htrim : trim (before ++ (keyPrefix ++ encoded) ++ after) = keyPrefix ++ encoded := by
    refine trim_surrounded hbefore hafter (by simp [hnonempty]) ?_ ?_
    · intro u hu
      have hhead : (keyPrefix ++ encoded).head? = some (unit 's') := rfl
      obtain rfl := Option.some.inj (hhead.symm.trans hu)
      decide
    · intro u hu
      rw [List.getLast?_append_of_ne_nil _ hnonempty] at hu
      exact (hchars u (List.mem_of_getLast? hu)).2
  have hdecoded : Platform.decodeKey encoded = .ok c.toJs :=
    hdecode _ _ (decodeKey_keyPayload hport hhost husername hpassword)
  rw [hkey] at hlength ⊢
  have hstart : (!keyPrefix.isPrefixOf (keyPrefix ++ encoded) ||
      decide ((keyPrefix ++ encoded).length > maxKeyLength)) = false := by
    have hpre : keyPrefix.isPrefixOf (keyPrefix ++ encoded) = true :=
      List.isPrefixOf_iff_prefix.2 (List.prefix_append _ _)
    simp only [hpre, Bool.not_true, Bool.false_or, decide_eq_false_iff_not]
    omega
  have halphabet : (encoded.isEmpty || !encoded.all fun u =>
      isLower u || isUpper u || isDigit u || u == unit '_' || u == unit '-') = false := by
    have hall : (encoded.all fun u =>
        isLower u || isUpper u || isDigit u || u == unit '_' || u == unit '-') = true :=
      List.all_eq_true.2 fun u hu => (hchars u hu).1
    rw [hall]
    simpa using hnonempty
  simp only [parseConnectionKey, htrim, hstart, List.drop_left, halphabet, hdecoded]
  simp only [Bool.false_eq_true, if_false, bind, Except.bind, pure, Except.pure,
    validateConnection_toJs hc]

end

section

/-- A platform for text in ASCII that decodes keys. -/
@[reducible] def Platform.decoding : Platform where
  lowerOther := Platform.ascii.lowerOther
  lowerOther_ne_nil := Platform.ascii.lowerOther_ne_nil
  lowerOther_outside := Platform.ascii.lowerOther_outside
  decodeKey encoded :=
    match BrowserVpn.decodeKey encoded with
    | some value => .ok value
    | none => .error "InvalidCharacterError"

attribute [local instance] Platform.decoding

theorem Platform.decoding_decodes : DecodesKeys := by
  intro encoded value h
  simp only [Platform.decodeKey, h]

/-- A password with a letter outside ASCII and one outside the basic plane. -/
theorem parseConnectionKey_exportKey_sample :
    parseConnectionKey (.str (js " " ++ exportKey "proxy.test".toList 443 "user".toList
      "é🔑".toList ++ js "\n")) =
      .ok ⟨js "proxy.test", 443, js "user", js "é🔑"⟩ := by
  have hvalid : validateConnection (Connection.toJs ⟨js "proxy.test", 443, js "user",
      js "é🔑"⟩) =
      .ok ⟨js "proxy.test", 443, js "user", js "é🔑"⟩ := by
    exact validateConnection_toJs ⟨by decide +kernel, by decide +kernel,
      List.all_eq_true.1 (by decide +kernel), by decide +kernel, by decide +kernel,
      by decide +kernel⟩
  exact parseConnectionKey_exportKey Platform.decoding_decodes hvalid rfl rfl rfl
    (by decide +kernel) (List.all_eq_true.1 (by decide)) (List.all_eq_true.1 (by decide))

end

end BrowserVpn
