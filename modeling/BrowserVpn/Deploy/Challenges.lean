import BrowserVpn.Deploy.Entrypoint
import BrowserVpn.Server.Acme

/-!
# Deploy.Challenges — HTTP-01 across two containers

Certbot puts its challenges below the webroot that the manager names on its command line;
the server that `run_server.py acme` becomes answers for the webroot on its own. Both are
the volume at `/acme`, so that what Certbot puts there is what is answered with.
-/

namespace BrowserVpn

open Data Python

/-! ## run_server.py -/

/-- What `main` of `run_server.py` comes to. -/
inductive RunServer where
  /-- `SystemExit` with this text. -/
  | exits (message : String)
  | entered (entered : Entered)
  /-- `probe_acme` tries to connect. -/
  | probes (host : String) (port : Nat)
deriving DecidableEq

/-- The arguments of the server for the challenges. -/
def acmeArguments : List CodeUnits :=
  [ascii serverPath, ascii "--acme-only", ascii "--listen", ascii ":8080",
    ascii "--acme-webroot", ascii "/acme"]

/-- `main` with the arguments behind the name of the script. -/
def runServer (polls : List (List Look)) (config : List UInt8) : List CodeUnits → RunServer
  | [mode] =>
      if mode = ascii "acme" then .entered (execv acmeArguments)
      else if mode = ascii "proxy" then .entered (runProxy polls config)
      else if mode = ascii "probe-acme" then .probes "127.0.0.1" 8080
      else .exits "Unknown service mode"
  | _ => .exits "Usage: run_server.py acme|proxy|probe-acme"

/-! ## manager.py -/

def certbotBase : List (List Char) :=
  ["certbot", "--config-dir", "/certbot-state/config", "--work-dir", "/certbot-state/work",
    "--logs-dir", "/certbot-state/logs"].map String.toList

/-- `certbot_command`. -/
def certbotCommand (config : SavedConfig) (email : List Char) (first : Bool) : List (List Char) :=
  if first then
    certbotBase ++
      ["certonly", "--non-interactive", "--agree-tos", "--quiet", "--webroot", "--webroot-path",
        "/acme", "--cert-name", "shbvpn", "--keep-until-expiring"].map String.toList ++
      (if email ≠ [] then ["--email".toList, email]
        else ["--register-unsafely-without-email".toList]) ++
      (match config.kind with
        | .ip => ["--preferred-profile".toList, "shortlived".toList, "--ip-address".toList, config.host]
        | .domain => ["-d".toList, config.host])
  else
    certbotBase ++
      ["renew", "--cert-name", "shbvpn", "--no-random-sleep-on-renew", "--quiet"].map String.toList

/-- What stands behind an option. -/
def optionValue (option : List Char) : List (List Char) → Option (List Char)
  | [] => none
  | argument :: arguments =>
      if argument = option then arguments.head? else optionValue option arguments

theorem webrootPath_certbotCommand (config : SavedConfig) (email : List Char) :
    optionValue "--webroot-path".toList (certbotCommand config email true) = some "/acme".toList := by
  simp only [certbotCommand, certbotBase, if_true, List.map_cons, List.map_nil, List.cons_append,
    List.nil_append]
  rfl

/-! ## What is answered -/

/-- Where the server looks for the challenges. -/
theorem challengeDirectory_acme :
    challengeDirectory (go "/acme") = go "/acme/.well-known/acme-challenge" := by
  decide +kernel

theorem runServer_acme (polls : List (List Look)) (config : List UInt8) :
    runServer polls config [ascii "acme"] = .entered (.exec
      [go serverPath, go "--acme-only", go "--listen", go ":8080", go "--acme-webroot", go "/acme"]) := by
  rw [runServer, if_pos rfl, acmeArguments, execv]
  simp only [List.mapM_cons, List.mapM_nil,
    fsencode_ascii (s := serverPath) (by decide),
    fsencode_ascii (s := "--acme-only") (by decide),
    fsencode_ascii (s := "--listen") (by decide),
    fsencode_ascii (s := ":8080") (by decide),
    fsencode_ascii (s := "--acme-webroot") (by decide),
    fsencode_ascii (s := "/acme") (by decide)]
  rfl

section

variable [Netip] [Tls] {Key Tag : Type}

theorem serverMain_acme (hmac : Hmac Key Tag) (outside : Surroundings Key) :
    serverMain hmac outside
      [go "--acme-only", go "--listen", go ":8080", go "--acme-webroot", go "/acme"] =
      .acme (go ":8080") (go "/acme") := by
  have hflags : parseFlags {}
      [go "--acme-only", go "--listen", go ":8080", go "--acme-webroot", go "/acme"] =
      .ok { listen := go ":8080", acmeOnly := true, acmeWebroot := go "/acme" } := rfl
  simp only [serverMain, hflags]
  rfl

/-- The server that the entrypoint becomes answers for the webroot that the manager gives
Certbot. With whatever method and path it is asked, it reads at most the file of a token
in the directory of the challenges, and answers with that file, whole, or not at all. -/
theorem challenges_are_answered (hmac : Hmac Key Tag) (outside : Surroundings Key)
    (polls : List (List Look)) (config : List UInt8) (saved : SavedConfig) (email : List Char) :
    ∃ arguments listen webroot,
      runServer polls config [ascii "acme"] = .entered (.exec (go serverPath :: arguments)) ∧
      serverMain hmac outside arguments = .acme listen webroot ∧
      (optionValue "--webroot-path".toList (certbotCommand saved email true)).map utf8 = some webroot ∧
      ∀ (readFile : GoString → Except GoString GoString) (method path : GoString),
        (∀ name ∈ (acmeHandler webroot readFile method path).asked, ∃ token,
          AsksFor method path token ∧
            name = webroot ++ go "/.well-known/acme-challenge/" ++ token) ∧
        ∀ contentType cacheControl data,
          (acmeHandler webroot readFile method path).answer = .file contentType cacheControl data ↔
            contentType = go "text/plain; charset=utf-8" ∧ cacheControl = go "no-store" ∧
            ∃ token, AsksFor method path token ∧ data.length ≤ 8192 ∧
              readFile (webroot ++ go "/.well-known/acme-challenge/" ++ token) = .ok data := by
  have hfile : ∀ token, challengeDirectory (go "/acme") ++ slashByte :: token =
      go "/acme" ++ go "/.well-known/acme-challenge/" ++ token := by
    intro token
    rw [challengeDirectory_acme]
    rfl
  refine ⟨_, _, _, runServer_acme polls config, serverMain_acme hmac outside, ?_, ?_⟩
  · rw [webrootPath_certbotCommand]
    exact congrArg some (by decide)
  · intro readFile method path
    constructor
    · intro name hname
      rcases asked_acmeHandler hname with ⟨token, hasks, hname⟩
      exact ⟨token, hasks, hname.trans (hfile token)⟩
    · intro contentType cacheControl data
      rw [answer_acmeHandler]
      simp only [hfile]

end

end BrowserVpn
