import BrowserVpn.Server.Strings
import BrowserVpn.Data.Path

/-!
# Server.Acme — the challenges of HTTP-01

The listener on port 80 answers for one directory below the webroot. What is asked for
is the rest of a path that has been percent-decoded, so that it can be anything; it is a
token of base64url or it is refused, and what is read is the file of that name in that
directory, never one above it.
-/

namespace BrowserVpn

open Data

def slashByte : UInt8 := 47

def dotByte : UInt8 := 46

/-- `filepath.Join`. -/
def filepathJoin (elements : List GoString) : GoString := Path.join slashByte dotByte elements

/-! ## acmeHandler -/

def acmePrefix : GoString := go "/.well-known/acme-challenge/"

/-- `[A-Za-z0-9_-]`. -/
def isAcmeByte (b : UInt8) : Bool :=
  (65 ≤ b && b ≤ 90) || (97 ≤ b && b ≤ 122) || (48 ≤ b && b ≤ 57) || b == 95 || b == 45

/-- `acmeToken.MatchString`. Without the flag `m` the end of the pattern is the end of
the text. -/
def isAcmeToken (token : GoString) : Bool :=
  1 ≤ token.length && token.length ≤ 256 && token.all isAcmeByte

/-- `http.NotFound`, or a file with its two headers. -/
inductive AcmeAnswer where
  | notFound
  | file (contentType cacheControl data : GoString)
deriving DecidableEq

/-- What was read on the way, and the answer. -/
structure AcmeReply where
  asked : List GoString
  answer : AcmeAnswer

/-- `acmeHandler(webroot)` for a request with this method and this decoded path, where
files are read by `readFile`. -/
def acmeHandler (webroot : GoString) (readFile : GoString → Except GoString GoString)
    (method path : GoString) : AcmeReply :=
  if (method ≠ go "GET" ∧ method ≠ go "HEAD") ∨ acmePrefix.isPrefixOf path = false then
    ⟨[], .notFound⟩
  else
    let token := path.drop acmePrefix.length
    if isAcmeToken token = false then ⟨[], .notFound⟩
    else
      let name := filepathJoin [webroot, go ".well-known", go "acme-challenge", token]
      match readFile name with
      | .error _ => ⟨[name], .notFound⟩
      | .ok data =>
          if data.length > 8 * 1024 then ⟨[name], .notFound⟩
          else ⟨[name], .file (go "text/plain; charset=utf-8") (go "no-store") data⟩

/-- Where the challenges of a webroot are. -/
def challengeDirectory (webroot : GoString) : GoString :=
  filepathJoin [webroot, go ".well-known", go "acme-challenge"]

/-! ## What can be read -/

theorem isName_of_token {token : GoString} (h : isAcmeToken token = true) :
    Path.IsName slashByte dotByte token := by
  simp only [isAcmeToken, Bool.and_eq_true, decide_eq_true_eq, List.all_eq_true] at h
  rcases h with ⟨⟨hlength, -⟩, hbytes⟩
  have hdot : dotByte ∉ token := by
    intro hmem
    have hbyte := hbytes _ hmem
    revert hbyte
    decide
  constructor
  · rintro rfl
    simp at hlength
  · intro hmem
    have hbyte := hbytes _ hmem
    revert hbyte
    decide
  · rintro rfl
    exact hdot List.mem_cons_self
  · rintro rfl
    exact hdot List.mem_cons_self

/-- The file of a token is in the directory. -/
theorem challengeFile_eq (webroot : GoString) {token : GoString} (h : isAcmeToken token = true) :
    filepathJoin [webroot, go ".well-known", go "acme-challenge", token] =
      challengeDirectory webroot ++ slashByte :: token := by
  have hdirectory : Path.IsName slashByte dotByte (go "acme-challenge") := by
    refine ⟨by decide, by decide, by decide, by decide⟩
  exact Path.join_child (isName_of_token h) hdirectory [webroot, go ".well-known"]

/-- A request that can be answered with a file. -/
def AsksFor (method path token : GoString) : Prop :=
  (method = go "GET" ∨ method = go "HEAD") ∧ isAcmeToken token = true ∧ path = acmePrefix ++ token

variable {method path token : GoString}

/-- A token is asked for by one path only. -/
theorem AsksFor.unique {other : GoString} (h : AsksFor method path token)
    (hother : AsksFor method path other) : other = token := by
  rcases h with ⟨-, -, rfl⟩
  exact (List.append_cancel_left hother.2.2).symm

/-- The file that is read is the one of the token. -/
theorem acmeHandler_of_asksFor (h : AsksFor method path token) (webroot : GoString)
    (readFile : GoString → Except GoString GoString) :
    acmeHandler webroot readFile method path =
      ⟨[challengeDirectory webroot ++ slashByte :: token],
        match readFile (challengeDirectory webroot ++ slashByte :: token) with
        | .error _ => .notFound
        | .ok data =>
            if data.length > 8 * 1024 then .notFound
            else .file (go "text/plain; charset=utf-8") (go "no-store") data⟩ := by
  rcases h with ⟨hmethod, htoken, rfl⟩
  have hallowed : ¬ ((method ≠ go "GET" ∧ method ≠ go "HEAD") ∨
      acmePrefix.isPrefixOf (acmePrefix ++ token) = false) := by
    rintro (⟨hget, hhead⟩ | hbelow)
    · exact hmethod.elim hget hhead
    · rw [List.isPrefixOf_iff_prefix.2 (List.prefix_append acmePrefix token)] at hbelow
      cases hbelow
  rw [acmeHandler, if_neg hallowed, List.drop_left]
  simp only [htoken, Bool.true_eq_false, if_false, challengeFile_eq webroot htoken]
  split
  · rfl
  · split <;> rfl

/-- Without a token nothing is read. -/
theorem acmeHandler_of_not_asksFor (h : ∀ token, ¬ AsksFor method path token) (webroot : GoString)
    (readFile : GoString → Except GoString GoString) :
    acmeHandler webroot readFile method path = ⟨[], .notFound⟩ := by
  rw [acmeHandler]
  split
  · rfl
  rename_i hallowed
  rcases not_or.1 hallowed with ⟨hmethod, hbelow⟩
  have hpath : acmePrefix ++ path.drop acmePrefix.length = path :=
    List.prefix_iff_eq_append.1 (List.isPrefixOf_iff_prefix.1 (by simpa using hbelow))
  have htoken : isAcmeToken (path.drop acmePrefix.length) = false := by
    rw [← Bool.not_eq_true]
    intro htoken
    apply h (path.drop acmePrefix.length)
    refine ⟨?_, htoken, hpath.symm⟩
    by_contra hneither
    exact hmethod (not_or.1 hneither)
  simp only [htoken, if_true]

/-- What is read is the file of the token that the request asks for. -/
theorem asked_acmeHandler {webroot name : GoString} {readFile : GoString → Except GoString GoString}
    (h : name ∈ (acmeHandler webroot readFile method path).asked) :
    ∃ token, AsksFor method path token ∧
      name = challengeDirectory webroot ++ slashByte :: token := by
  by_cases hasks : ∃ token, AsksFor method path token
  · rcases hasks with ⟨token, hasks⟩
    rw [acmeHandler_of_asksFor hasks] at h
    exact ⟨token, hasks, List.mem_singleton.1 h⟩
  · rw [acmeHandler_of_not_asksFor (not_exists.1 hasks)] at h
    cases h

/-- A challenge is answered with its file as it is, if it is not too long. -/
theorem answer_acmeHandler {webroot contentType cacheControl data : GoString}
    {readFile : GoString → Except GoString GoString} :
    (acmeHandler webroot readFile method path).answer = .file contentType cacheControl data ↔
      contentType = go "text/plain; charset=utf-8" ∧ cacheControl = go "no-store" ∧
      ∃ token, AsksFor method path token ∧ data.length ≤ 8192 ∧
        readFile (challengeDirectory webroot ++ slashByte :: token) = .ok data := by
  constructor
  · intro h
    by_cases hasks : ∃ token, AsksFor method path token
    · rcases hasks with ⟨token, hasks⟩
      rw [acmeHandler_of_asksFor hasks] at h
      simp only at h
      split at h
      · cases h
      rename_i hread
      split at h
      · cases h
      · injection h with htype hcache hdata
        subst hdata
        exact ⟨htype.symm, hcache.symm, token, hasks, by omega, hread⟩
    · rw [acmeHandler_of_not_asksFor (not_exists.1 hasks)] at h
      cases h
  · rintro ⟨rfl, rfl, token, hasks, hlength, hread⟩
    rw [acmeHandler_of_asksFor hasks]
    simp only [hread]
    rw [if_neg (by omega)]

end BrowserVpn
