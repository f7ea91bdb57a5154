import BrowserVpn.Core.Connection
import BrowserVpn.Data.Base64
import BrowserVpn.Server.Credentials

/-!
# Server.Auth — proxy authentication

The server keeps a keyed tag of `user:password` and compares it with the tag of
what a `Proxy-Authorization` header decodes to. The code in a header may have 1024
characters, which carry 768 bytes. The extension accepts 256 and 512 code units
for the two halves, with the colon 769 bytes of ASCII, and more outside ASCII.
-/

namespace BrowserVpn

open Data

/-- What `authenticationTag` computes with: HMAC-SHA256 under a key. -/
abbrev Hmac (Key Tag : Type) := Key → GoString → Tag

/-- The key and the tag of a `proxyServer`. -/
structure ProxyAuth (Key Tag : Type) where
  authKey : Key
  authTag : Tag

section

variable {Key Tag : Type} (hmac : Hmac Key Tag)

/-- `newProxy`, with what `rand.Read` returned. -/
def newProxy (key : Except String Key) (user password : GoString) :
    Except String (ProxyAuth Key Tag) :=
  match key with
  | .error err => .error ("initialize proxy authentication: " ++ err)
  | .ok key => .ok ⟨key, hmac key (credentialLine user password)⟩

variable [Unicode] [DecidableEq Tag]

/-- `authorized`. -/
def authorized (p : ProxyAuth Key Tag) (header : GoString) : Bool :=
  match cut header 32 with
  | none => false
  | some (scheme, encoded) =>
      if !equalFold scheme (go "Basic") || encoded.length > 1024 then false
      else match base64Decode (trimSpace encoded) with
        | none => false
        | some decoded => hmac p.authKey decoded == p.authTag

/-- The header that carries a user and a password. -/
def basicHeader (user password : GoString) : GoString :=
  go "Basic " ++ base64Encode (credentialLine user password)

/-- A proxy for a user and a password takes their header, and no other means the
same. -/
structure Authenticates (key : Key) (user password : GoString) : Prop where
  accepts : ∀ p, newProxy hmac (.ok key) user password = .ok p →
    authorized hmac p (basicHeader user password) = true
  only : ∀ p, newProxy hmac (.ok key) user password = .ok p → ∀ header,
    authorized hmac p header = true → ∃ scheme encoded, cut header 32 = some (scheme, encoded) ∧
      equalFold scheme (go "Basic") = true ∧
      base64Decode (trimSpace encoded) = some (credentialLine user password)

/-! ## What is authorized -/

/-- A header is authorized when its code is short enough and decodes to bytes with
the same tag. -/
theorem authorized_iff {p : ProxyAuth Key Tag} {header : GoString} :
    authorized hmac p header = true ↔ ∃ scheme encoded decoded,
      cut header 32 = some (scheme, encoded) ∧ equalFold scheme (go "Basic") = true ∧
      encoded.length ≤ 1024 ∧ base64Decode (trimSpace encoded) = some decoded ∧
      hmac p.authKey decoded = p.authTag := by
  constructor
  · intro h
    rw [authorized] at h
    split at h
    · cases h
    rename_i scheme encoded hcut
    split at h
    · cases h
    rename_i hguard
    split at h
    · cases h
    rename_i decoded hdecoded
    simp only [Bool.or_eq_true, Bool.not_eq_true', decide_eq_true_eq, not_or, Bool.not_eq_false,
      Nat.not_lt] at hguard
    exact ⟨scheme, encoded, decoded, hcut, hguard.1, hguard.2, hdecoded, beq_iff_eq.1 h⟩
  · rintro ⟨scheme, encoded, decoded, hcut, hscheme, hlength, hdecoded, htag⟩
    simp [authorized, hcut, hscheme, Nat.not_lt.2 hlength, hdecoded, htag]

end

/-- Neither the digits of a code nor its padding are white space. -/
theorem trimSpace_base64Encode (bytes : List UInt8) :
    trimSpace (base64Encode bytes) = base64Encode bytes := by
  have hplain : ∀ c ∈ base64Encode bytes, (∀ p ∈ spaces, p.head?.any (· != c) = true) ∧
      ∀ p ∈ spaces.map List.reverse, p.head?.any (· != c) = true := by
    intro c hc
    have hall : ∀ n < 64,
        (∀ p ∈ spaces, p.head?.any (· != base64Digit n) = true) ∧
          ∀ p ∈ spaces.map List.reverse, p.head?.any (· != base64Digit n) = true := by
      decide +kernel
    rcases mem_base64Encode hc with rfl | ⟨n, hn, rfl⟩
    · decide +kernel
    · exact hall n hn
  have hfront : dropPieces spaces (base64Encode bytes).length (base64Encode bytes) =
      base64Encode bytes := by
    cases hcode : base64Encode bytes with
    | nil => rfl
    | cons c code =>
        have hc : c ∈ base64Encode bytes := by simp [hcode]
        exact dropPieces_of_head rfl (hplain c hc).1 _
  have hback : dropPieces (spaces.map List.reverse) (base64Encode bytes).length
      (base64Encode bytes).reverse = (base64Encode bytes).reverse := by
    cases hcode : (base64Encode bytes).reverse with
    | nil =>
        rw [List.reverse_eq_nil_iff] at hcode
        rw [hcode]
        rfl
    | cons c code =>
        have hc : c ∈ base64Encode bytes := by
          rw [← List.mem_reverse, hcode]
          simp
        exact dropPieces_of_head rfl (hplain c hc).2 _
  rw [trimSpace, hfront, hback, List.reverse_reverse]

section

variable {Key Tag : Type} (hmac : Hmac Key Tag) [Unicode] [DecidableEq Tag]

omit [Unicode] [DecidableEq Tag] in
theorem cut_basic (bytes : GoString) :
    cut (go "Basic " ++ base64Encode bytes) 32 = some (go "Basic", base64Encode bytes) := by
  have hbasic : go "Basic " = go "Basic" ++ [32] := by decide
  rw [cut_eq_some, hbasic, List.append_assoc]
  exact ⟨rfl, by decide⟩

omit [Unicode] [DecidableEq Tag] in
theorem cut_basicHeader (user password : GoString) :
    cut (basicHeader user password) 32 =
      some (go "Basic", base64Encode (credentialLine user password)) := cut_basic _

/-- Bytes pass if they have the tag and their code is not too long. -/
theorem authorized_basic {key : Key} {tag : Tag} {bytes : GoString} :
    authorized hmac ⟨key, tag⟩ (go "Basic " ++ base64Encode bytes) = true ↔
      bytes.length ≤ 768 ∧ hmac key bytes = tag := by
  have hlength := length_base64Encode bytes
  rw [authorized_iff]
  constructor
  · rintro ⟨scheme, encoded, decoded, hcut, -, hle, hdecoded, htag⟩
    rw [cut_basic] at hcut
    obtain ⟨rfl, rfl⟩ := Prod.mk.inj (Option.some.inj hcut)
    rw [trimSpace_base64Encode, base64Decode_encode] at hdecoded
    obtain rfl := Option.some.inj hdecoded
    exact ⟨by omega, htag⟩
  · rintro ⟨hle, htag⟩
    refine ⟨_, _, _, cut_basic bytes, equalFold_self _, by omega, ?_, htag⟩
    rw [trimSpace_base64Encode, base64Decode_encode]

/-- The header of a user and a password passes if its code is not too long. -/
theorem authorized_basicHeader {key : Key} {user password : GoString} :
    authorized hmac ⟨key, hmac key (credentialLine user password)⟩ (basicHeader user password) = true
      ↔ (credentialLine user password).length ≤ 768 := by
  rw [basicHeader, authorized_basic]
  exact and_iff_left rfl

/-- With a tag that tells bytes apart, only the user and the password pass. -/
theorem only_of_authorized (hcollision : ∀ key, Function.Injective (hmac key)) {key : Key}
    {user password header : GoString}
    (h : authorized hmac ⟨key, hmac key (credentialLine user password)⟩ header = true) :
    ∃ scheme encoded, cut header 32 = some (scheme, encoded) ∧
      equalFold scheme (go "Basic") = true ∧
      base64Decode (trimSpace encoded) = some (credentialLine user password) := by
  obtain ⟨scheme, encoded, decoded, hcut, hscheme, -, hdecoded, htag⟩ := (authorized_iff hmac).1 h
  obtain rfl := hcollision key htag
  exact ⟨scheme, encoded, hcut, hscheme, hdecoded⟩

/-! ## The bound -/

/-- A connection can authenticate when `user:password` has at most 768 bytes, and
otherwise not, whether or not the extension and the server accept its parts. -/
theorem authenticates_iff (hcollision : ∀ key, Function.Injective (hmac key))
    (username password : List Char) (key : Key) :
    Authenticates hmac key (utf8 username) (utf8 password) ↔
      (utf8 (username ++ ':' :: password)).length ≤ 768 := by
  have hline : utf8 (username ++ ':' :: password) =
      credentialLine (utf8 username) (utf8 password) := by
    rw [utf8_append, utf8_cons_ascii (by decide)]
    rfl
  rw [hline]
  constructor
  · intro h
    exact (authorized_basicHeader hmac).1 (h.accepts _ rfl)
  · intro hle
    refine ⟨fun p hp => ?_, fun p hp header h => ?_⟩
    · obtain rfl := Except.ok.inj hp
      exact (authorized_basicHeader hmac).2 hle
    · obtain rfl := Except.ok.inj hp
      exact only_of_authorized hmac hcollision h

/-! ## What the extension accepts -/

/-- `validateConnection` accepts a key with this user and this password. -/
def ClientAccepts [Platform] (username password : List Char) : Prop :=
  ∃ value c, validateConnection value = .ok c ∧ c.username = username.flatMap utf16 ∧
    c.password = password.flatMap utf16

/-- Some credentials file gives the server this user and this password. -/
def ServerReads (username password : List Char) : Prop :=
  ∃ file, readCredentials file = .ok (utf8 username, utf8 password)

end

section

attribute [local instance] Platform.ascii Unicode.sample

/-- A key whose tags are what they tag. -/
def Hmac.transparent : Hmac Unit GoString := fun _ s => s

/-- A key with this user and this password is as good as the sample. -/
theorem clientAccepts_of_checks {username password : List Char}
    (hu : checkUsername (.str (username.flatMap utf16)) = .ok (username.flatMap utf16))
    (hp : checkPassword (.str (password.flatMap utf16)) = .ok (password.flatMap utf16)) :
    ClientAccepts username password := by
  have hvalid : Connection.Valid { Connection.sample with
      username := username.flatMap utf16, password := password.flatMap utf16 } :=
    { Connection.sample_valid with username := hu, password := hp }
  exact ⟨_, _, validateConnection_toJs hvalid, rfl, rfl⟩

theorem authenticates_iff_sample :
    Authenticates .transparent () (utf8 "user".toList) (utf8 "secret".toList) ↔
      (utf8 ("user".toList ++ ':' :: "secret".toList)).length ≤ 768 :=
  authenticates_iff .transparent (fun _ _ _ h => h) _ _ ()

/-- The longest user and the longest password that the extension accepts, in ASCII,
never authenticate. -/
theorem authenticates_fails : ¬ ∀ username password, ClientAccepts username password →
    ServerReads username password →
    Authenticates .transparent () (utf8 username) (utf8 password) := by
  intro h
  have hclient : ClientAccepts (List.replicate 256 'a') (List.replicate 512 'a') :=
    clientAccepts_of_checks (by decide +kernel) (by decide +kernel)
  have hserver : ServerReads (List.replicate 256 'a') (List.replicate 512 'a') := by
    have hascii : ∀ n, utf8 (List.replicate n 'a') = List.replicate n 97 := by
      intro n
      rw [utf8_ascii fun c hc => by rw [List.eq_of_mem_replicate hc]; decide, List.map_replicate]
      rfl
    refine ⟨.ok (credentialLine (List.replicate 256 97) (List.replicate 512 97)), ?_⟩
    rw [hascii, hascii, readCredentials_eq_ok]
    refine ⟨⟨nofun, nofun, by decide +kernel, by decide +kernel⟩, [], by simp [serverEndings], ?_⟩
    rw [List.append_nil]
  have hlong := (authorized_basicHeader .transparent).1 ((h _ _ hclient hserver).accepts _ rfl)
  exact absurd hlong (by decide +kernel)

end

end BrowserVpn
