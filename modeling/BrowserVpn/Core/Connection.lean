import BrowserVpn.Core.Text

/-!
# Core.Connection — hosts, connections and connection keys

`isValidHost`, `validateConnection` and `parseConnectionKey` of `core.mjs`.
What the rest of the extension needs from them is that a validated connection
validates to itself (`validateConnection_toJs`): the service worker validates
the stored object again on every read.
-/

namespace BrowserVpn

def keyPrefix : JsString := js "shbvpn1:"
def maxKeyLength : Nat := 4096
def maxExclusions : Nat := 100

/-! ## Hosts -/

/-- The code units of a host label: `[a-z0-9-]`. -/
def isLabelUnit (u : UInt16) : Bool := isLower u || isDigit u || u == unit '-'

/-- The code units of a host. -/
def isHostUnit (u : UInt16) : Bool := isLabelUnit u || u == unit '.'

/-- `/^\d+(?:\.\d+){3}$/`. -/
def isDottedQuad (value : JsString) : Bool :=
  let parts := splitAt (unit '.') value
  parts.length == 4 && parts.all fun p => !p.isEmpty && p.all isDigit

/-- An octet in its canonical spelling. -/
def isOctet (octet : JsString) : Bool :=
  ofDecimal octet ≤ 255 && decimal (ofDecimal octet) == octet

/-- `/^[a-z0-9](?:[a-z0-9-]*[a-z0-9])?$/` and the length limits of a label. -/
def isLabel (label : JsString) : Bool :=
  0 < label.length && label.length ≤ 63 && label.all isLabelUnit &&
    label.head?.any (· != unit '-') && label.getLast?.any (· != unit '-')

/-- The test of `isValidHost` on the lower-cased text. -/
def isHostValue (value : JsString) : Bool :=
  if isDottedQuad value then (splitAt (unit '.') value).all isOctet
  else if (!value.isEmpty && value.all fun u => isDigit u || u == unit '.') ||
      !value.contains (unit '.') then false
  else (splitAt (unit '.') value).all isLabel

theorem mem_joinWith {separator u : UInt16} {parts : List JsString}
    (h : u ∈ joinWith separator parts) : u = separator ∨ ∃ p ∈ parts, u ∈ p := by
  induction parts with
  | nil => simp [joinWith] at h
  | cons p rest ih =>
      cases rest with
      | nil =>
          simp only [joinWith, List.intercalate_singleton] at h
          exact Or.inr ⟨p, by simp, h⟩
      | cons q rest =>
          have hcons : joinWith separator (p :: q :: rest) =
              p ++ [separator] ++ joinWith separator (q :: rest) := by
            simp [joinWith]
          rw [hcons, List.mem_append, List.mem_append, List.mem_singleton] at h
          rcases h with (hp | hs) | hr
          · exact Or.inr ⟨p, by simp, hp⟩
          · exact Or.inl hs
          · rcases ih hr with hs | ⟨r, hr, hu⟩
            · exact Or.inl hs
            · exact Or.inr ⟨r, List.mem_cons_of_mem p hr, hu⟩

/-- If every piece between the separators is made of `P`, so is the text. -/
theorem forall_mem_of_splitAt {separator : UInt16} {s : JsString} {P : UInt16 → Prop}
    (hsep : P separator) (h : ∀ p ∈ splitAt separator s, ∀ u ∈ p, P u) : ∀ u ∈ s, P u := by
  intro u hu
  have hs : joinWith separator (splitAt separator s) = s := List.intercalate_splitOn separator
  rw [← hs] at hu
  rcases mem_joinWith hu with rfl | ⟨p, hp, hup⟩
  · exact hsep
  · exact h p hp u hup

theorem isHostUnit_dot : isHostUnit (unit '.') = true := by decide

/-- A host that passes the test is spelled with host units only. -/
theorem isHostUnit_of_isHostValue {value : JsString} (h : isHostValue value = true) :
    ∀ u ∈ value, isHostUnit u = true := by
  rw [isHostValue] at h
  refine forall_mem_of_splitAt isHostUnit_dot fun p hp u hu => ?_
  split at h
  · rename_i hquad
    rw [isDottedQuad] at hquad
    simp only [Bool.and_eq_true, List.all_eq_true] at hquad
    have hdigit := (hquad.2 p hp).2 u hu
    simp [isHostUnit, isLabelUnit, hdigit]
  · split at h
    · cases h
    · rw [List.all_eq_true] at h
      have hlabel := h p hp
      simp only [isLabel, Bool.and_eq_true, List.all_eq_true] at hlabel
      simp [isHostUnit, hlabel.1.1.2 u hu]

/-- Host units are ASCII, in lower case, and no white space. -/
theorem isHostUnit_plain {u : UInt16} (h : isHostUnit u = true) :
    isUpper u = false ∧ u.toNat < 128 ∧ isSpace u = false := by
  have hdot : (unit '.').toNat = 46 := by decide
  have hdash : (unit '-').toNat = 45 := by decide
  have hn : u.toNat = 46 ∨ u.toNat = 45 ∨ (97 ≤ u.toNat ∧ u.toNat ≤ 122) ∨
      (48 ≤ u.toNat ∧ u.toNat ≤ 57) := by
    simp only [isHostUnit, isLabelUnit, isLower, isDigit, Bool.or_eq_true, Bool.and_eq_true,
      decide_eq_true_eq, beq_iff_eq] at h
    rcases h with ((h | h) | h) | h
    · exact Or.inr (Or.inr (Or.inl h))
    · exact Or.inr (Or.inr (Or.inr h))
    · exact Or.inr (Or.inl (by rw [h, hdash]))
    · exact Or.inl (by rw [h, hdot])
  refine ⟨?_, by omega, ?_⟩
  · simp only [isUpper, Bool.and_eq_false_iff, decide_eq_false_iff_not]
    omega
  · simp only [isSpace, Bool.or_eq_false_iff, Bool.and_eq_false_iff, decide_eq_false_iff_not,
      beq_eq_false_iff_ne]
    omega

/-! ## Connections -/

/-- A connection as `validateConnection` returns it (`v` is 1). -/
structure Connection where
  host : JsString
  port : Nat
  username : JsString
  password : JsString
deriving DecidableEq

def Connection.sample : Connection where
  host := js "proxy.test"
  port := 443
  username := js "user"
  password := js "secret"

/-- The object that is stored. -/
def Connection.toJs (c : Connection) : JsVal :=
  .obj [(js "v", .num (some 1)), (js "host", .str c.host), (js "port", .num (some c.port)),
    (js "username", .str c.username), (js "password", .str c.password)]

/-- Order of strings by code units, as `Array.prototype.sort` compares. -/
def stringLe : JsString → JsString → Bool
  | [], _ => true
  | _ :: _, [] => false
  | a :: s, b :: t => a.toNat < b.toNat || (a == b && stringLe s t)

def sortStrings (keys : List JsString) : List JsString :=
  keys.insertionSort fun a b => stringLe a b = true

/-- The port check of `validateConnection`. -/
def checkPort (v : JsVal) : Except String Nat :=
  match v.integer? with
  | some n =>
      if n < 1 ∨ n > 65535 then .error "В ключе указан некорректный порт." else .ok n.toNat
  | none => .error "В ключе указан некорректный порт."

/-- The check of a secret: a string of 1 to `limit` code units with none of
the `banned` ones. -/
def checkSecret (limit : Nat) (banned : UInt16 → Bool) (message : String) :
    JsVal → Except String JsString
  | .str s => if s.length < 1 ∨ s.length > limit ∨ s.any banned then .error message else .ok s
  | _ => .error message

def checkUsername : JsVal → Except String JsString :=
  checkSecret 256 (fun u => u == unit ':' || isControl u)
    "В ключе указано некорректное имя пользователя."

def checkPassword : JsVal → Except String JsString :=
  checkSecret 512 isControl "В ключе указан некорректный пароль."

theorem checkSecret_ok {limit : Nat} {banned : UInt16 → Bool} {message : String} {v : JsVal}
    {s : JsString} (h : checkSecret limit banned message v = .ok s) :
    checkSecret limit banned message (.str s) = .ok s := by
  cases v with
  | str t =>
      rw [checkSecret] at h
      split at h
      · cases h
      · rename_i hshape
        cases h
        rw [checkSecret, if_neg hshape]
  | _ => cases h

theorem checkPort_ok {v : JsVal} {n : Nat} (h : checkPort v = .ok n) :
    checkPort (.num (some n)) = .ok n := by
  rw [checkPort] at h
  split at h
  · rename_i m _
    split at h
    · cases h
    · rename_i hrange
      cases h
      have hint : (JsVal.num (some ((m.toNat : Nat) : Rat))).integer? = some (m.toNat : Int) := by
        simp [JsVal.integer?]
      rw [checkPort, hint]
      simp only
      rw [if_neg (by omega), Int.toNat_natCast]
  · cases h

section

variable [Platform]

/-- `isValidHost` on a string. -/
def isValidHost (host : JsString) : Bool :=
  if host.length < 3 || host.length > 253 || host != trim host then false
  else isHostValue (toLowerCase host)

/-- The host check of `validateConnection`. -/
def checkHost : JsVal → Except String JsString
  | .str s => if isValidHost s then .ok s else .error "В ключе указан некорректный адрес сервера."
  | _ => .error "В ключе указан некорректный адрес сервера."

def validateConnection (value : JsVal) : Except String Connection :=
  match value with
  | .obj fields => do
      let keys := sortStrings (fields.map Prod.fst)
      if joinWith (unit ',') keys != js "host,password,port,username,v" ||
          (JsVal.field fields (js "v")).integer? != some 1 then
        throw "Неподдерживаемый формат ключа подключения."
      let host ← checkHost (JsVal.field fields (js "host"))
      let port ← checkPort (JsVal.field fields (js "port"))
      let username ← checkUsername (JsVal.field fields (js "username"))
      let password ← checkPassword (JsVal.field fields (js "password"))
      return { host := toLowerCase host, port, username, password }
  | _ => throw "Некорректный ключ подключения."

/-- `/ключ|порт|адрес|пользователя|пароль|формат/`. -/
def isKeyMessage (message : String) : Bool :=
  ["ключ", "порт", "адрес", "пользователя", "пароль", "формат"].any fun word =>
    message.toList.tails.any fun t => word.toList.isPrefixOf t

def parseConnectionKey (raw : JsVal) : Except String Connection :=
  match raw with
  | .str s => do
      let key := trim s
      if !keyPrefix.isPrefixOf key || key.length > maxKeyLength then
        throw "Ключ должен начинаться с shbvpn1:."
      let encoded := key.drop keyPrefix.length
      if encoded.isEmpty || !encoded.all fun u =>
          isLower u || isUpper u || isDigit u || u == unit '_' || u == unit '-' then
        throw "Некорректный ключ подключения."
      match Platform.decodeKey encoded >>= validateConnection with
      | .ok connection => return connection
      | .error message =>
          if isKeyMessage message then throw message
          throw "Не удалось прочитать ключ подключения."
  | _ => throw "Вставьте ключ подключения."

/-! ## Validated connections -/

/-- Lower-casing into ASCII keeps the length. -/
theorem lowerFrom_length {s before : JsString} (h : ∀ w ∈ lowerFrom before s, w.toNat < 128) :
    (lowerFrom before s).length = s.length := by
  induction s generalizing before with
  | nil => rfl
  | cons u rest ih =>
      rw [lowerFrom] at h ⊢
      have hunit : ∀ w ∈ lowerUnit before u rest, w.toNat < 128 := fun w hw => h w (by simp [hw])
      have hlen : (lowerUnit before u rest).length = 1 := by
        rw [lowerUnit] at hunit ⊢
        split at hunit
        · rename_i hup
          rw [if_pos hup, List.length_singleton]
        · rename_i hup
          rw [if_neg hup]
          split at hunit
          · rename_i hlow
            rw [if_pos hlow, List.length_singleton]
          · rename_i hlow
            rw [if_neg hlow]
            split at hunit
            · exact absurd (hunit 0x307 (by simp)) (by decide)
            · rename_i hdot
              rw [if_neg hdot]
              split at hunit
              · rename_i hkelvin
                rw [if_pos hkelvin, List.length_singleton]
              · obtain ⟨w, hw⟩ :=
                  List.exists_mem_of_ne_nil _ (Platform.lowerOther_ne_nil before u rest)
                have hout := (Platform.lowerOther_outside before u rest w hw).1
                exact absurd (hunit w hw) (by omega)
      rw [List.length_append, hlen, ih fun w hw => h w (by simp [hw]), List.length_cons]
      omega

/-- A valid host stays valid in lower case, which is then its own lower case. -/
theorem isValidHost_toLowerCase {s : JsString} (h : isValidHost s = true) :
    isValidHost (toLowerCase s) = true ∧ toLowerCase (toLowerCase s) = toLowerCase s ∧
      ∀ u ∈ toLowerCase s, isHostUnit u = true := by
  rw [isValidHost] at h
  split at h
  · cases h
  · rename_i hshape
    have hunits := isHostUnit_of_isHostValue h
    have hlower : toLowerCase (toLowerCase s) = toLowerCase s :=
      toLowerCase_of_lower fun u hu =>
        ⟨(isHostUnit_plain (hunits u hu)).1, (isHostUnit_plain (hunits u hu)).2.1⟩
    have hlen : (toLowerCase s).length = s.length :=
      lowerFrom_length fun w hw => (isHostUnit_plain (hunits w hw)).2.1
    have htrim : trim (toLowerCase s) = toLowerCase s :=
      trim_of_no_space fun u hu => (isHostUnit_plain (hunits u hu)).2.2
    simp only [Bool.or_eq_true, decide_eq_true_eq, not_or] at hshape
    refine ⟨?_, hlower, hunits⟩
    rw [isValidHost, hlen, htrim, hlower, if_neg, h]
    simpa using ⟨by simpa using hshape.1.1, by simpa using hshape.1.2⟩

/-- A lower-cased text that is a valid host is its own lower case. -/
theorem toLowerCase_of_isValidHost {s : JsString} (h : isValidHost (toLowerCase s) = true) :
    toLowerCase (toLowerCase s) = toLowerCase s := by
  obtain ⟨-, -, hunits⟩ := isValidHost_toLowerCase h
  refine toLowerCase_of_lower fun u hu => ⟨(lowerFrom_units u hu).1, ?_⟩
  exact ascii_of_lowerFrom (fun w hw => (lowerFrom_units w hw).2)
    (fun w hw => (isHostUnit_plain (hunits w hw)).2.1) u hu

theorem checkHost_ok {v : JsVal} {s : JsString} (h : checkHost v = .ok s) :
    isValidHost s = true := by
  cases v with
  | str t =>
      rw [checkHost] at h
      split at h
      · cases h
        assumption
      · cases h
  | _ => cases h

/-- What a validated connection is made of. -/
structure Connection.Valid (c : Connection) : Prop where
  host : isValidHost c.host = true
  lower : toLowerCase c.host = c.host
  units : ∀ u ∈ c.host, isHostUnit u = true
  port : checkPort (.num (some c.port)) = .ok c.port
  username : checkUsername (.str c.username) = .ok c.username
  password : checkPassword (.str c.password) = .ok c.password

theorem validateConnection_valid {v : JsVal} {c : Connection}
    (h : validateConnection v = .ok c) : c.Valid := by
  cases v with
  | obj fields =>
      rw [validateConnection] at h
      simp only [bind, Except.bind, pure, Except.pure, throw, throwThe,
        MonadExceptOf.throw] at h
      split at h
      · cases h
      · split at h
        · cases h
        · rename_i host hhost
          split at h
          · cases h
          · rename_i port hport
            split at h
            · cases h
            · rename_i username husername
              split at h
              · cases h
              · rename_i password hpassword
                cases h
                obtain ⟨hvalid, hlower, hunits⟩ := isValidHost_toLowerCase (checkHost_ok hhost)
                exact ⟨hvalid, hlower, hunits, checkPort_ok hport, checkSecret_ok husername,
                  checkSecret_ok hpassword⟩
  | _ => cases h

/-- A validated connection validates to itself. -/
theorem validateConnection_toJs {c : Connection} (h : c.Valid) :
    validateConnection c.toJs = .ok c := by
  have hkeys : joinWith (unit ',') (sortStrings
      [js "v", js "host", js "port", js "username", js "password"]) =
      js "host,password,port,username,v" := by decide +kernel
  have hfield : ∀ key v rest, JsVal.field ((key, v) :: rest) key = v := by
    intro key v rest
    simp [JsVal.field]
  have hskip : ∀ key key' v rest, (key' == key) = false →
      JsVal.field ((key', v) :: rest) key = JsVal.field rest key := by
    intro key key' v rest hne
    simp [JsVal.field, hne]
  have hone : (JsVal.num (some 1)).integer? = some 1 := by simp [JsVal.integer?]
  rw [Connection.toJs, validateConnection]
  simp only [List.map_cons, List.map_nil, hkeys, hfield,
    hskip (js "host") (js "v") _ _ (by decide),
    hskip (js "port") (js "v") _ _ (by decide), hskip (js "port") (js "host") _ _ (by decide),
    hskip (js "username") (js "v") _ _ (by decide),
    hskip (js "username") (js "host") _ _ (by decide),
    hskip (js "username") (js "port") _ _ (by decide),
    hskip (js "password") (js "v") _ _ (by decide),
    hskip (js "password") (js "host") _ _ (by decide),
    hskip (js "password") (js "port") _ _ (by decide),
    hskip (js "password") (js "username") _ _ (by decide), hone, checkHost, h.host, if_true,
    h.port, h.username, h.password, bne_self_eq_false, Bool.or_false]
  simp only [Bool.false_eq_true, if_false, bind, Except.bind, pure, Except.pure, h.lower]

end

section

attribute [local instance] Platform.ascii

theorem Connection.sample_valid : Connection.sample.Valid where
  host := by decide +kernel
  lower := by decide +kernel
  units := List.all_eq_true.1 (by decide +kernel)
  port := by decide +kernel
  username := by decide +kernel
  password := by decide +kernel

end

end BrowserVpn
