import BrowserVpn.Server.Auth
import BrowserVpn.Server.Credentials
import BrowserVpn.Server.Guard
import BrowserVpn.Server.Reload

/-!
# Server.Start — the command line of the server

`main` up to the listener, with the package `flag` as far as it is used. A flag that
takes a value takes the next argument whatever it looks like, so that an argument
list of names and values is read back as it was written.
-/

namespace BrowserVpn

open Data

/-! ## flag.Parse -/

/-- What `flag.Parse` sees in an argument. -/
inductive FlagWord where
  /-- Here the flags end. -/
  | stop
  | bad
  | flag (name : GoString) (value : Option GoString)
deriving DecidableEq

/-- A flag without its dashes. The search for `=` starts behind the first byte. -/
def flagName : GoString → FlagWord
  | [] => .bad
  | b :: name =>
      if b = 45 ∨ b = 61 then .bad
      else match cut name 61 with
        | some (before, after) => .flag (b :: before) (some after)
        | none => .flag (b :: name) none

def flagWord : GoString → FlagWord
  | 45 :: b :: rest =>
      if b = 45 then
        if rest = [] then .stop else flagName rest
      else flagName (b :: rest)
  | _ => .stop

/-- `strconv.ParseBool`. -/
def parseBool (value : GoString) : Option Bool :=
  if value ∈ ["1", "t", "T", "true", "TRUE", "True"].map go then some true
  else if value ∈ ["0", "f", "F", "false", "FALSE", "False"].map go then some false
  else none

/-- Why `flag.Parse` ends the program. -/
inductive FlagError where
  | help
  | badSyntax (argument : GoString)
  | undefined (name : GoString)
  | missing (name : GoString)
  | invalid (name value : GoString)
deriving DecidableEq

/-- What `main` reads off the command line, with its defaults. -/
structure Flags where
  listen : GoString := go ":443"
  cert : GoString := []
  key : GoString := []
  credentials : GoString := []
  selfHost : GoString := []
  extraSelf : List Addr := []
  acmeOnly : Bool := false
  acmeWebroot : GoString := []

/-- A flag that was declared. `acme-only` needs no value. -/
inductive Formal where
  | value (set : Flags → GoString → Option Flags)
  | bool (set : Flags → Bool → Flags)

section

variable [Netip]

/-- The declarations of `main`. -/
def formal : List (GoString × Formal) :=
  [(go "listen", .value fun flags value => some { flags with listen := value }),
    (go "cert", .value fun flags value => some { flags with cert := value }),
    (go "key", .value fun flags value => some { flags with key := value }),
    (go "credentials", .value fun flags value => some { flags with credentials := value }),
    (go "self-host", .value fun flags value => some { flags with selfHost := value }),
    (go "self-address", .value fun flags value =>
      (setSelfAddress flags.extraSelf value).map fun addresses =>
        { flags with extraSelf := addresses }),
    (go "acme-only", .bool fun flags value => { flags with acmeOnly := value }),
    (go "acme-webroot", .value fun flags value => some { flags with acmeWebroot := value })]

/-- A flag with its value. -/
def setFlag (set : Flags → GoString → Option Flags) (flags : Flags) (name value : GoString) :
    Except FlagError Flags :=
  match set flags value with
  | none => .error (.invalid name value)
  | some flags => .ok flags

def parseFlags (flags : Flags) : List GoString → Except FlagError Flags
  | [] => .ok flags
  | argument :: arguments =>
      match flagWord argument with
      | .stop => .ok flags
      | .bad => .error (.badSyntax argument)
      | .flag name value =>
          match formal.lookup name with
          | none =>
              if name = go "help" ∨ name = go "h" then .error .help else .error (.undefined name)
          | some (.bool set) =>
              match parseBool (value.getD (go "true")) with
              | none => .error (.invalid name (value.getD (go "true")))
              | some b => parseFlags (set flags b) arguments
          | some (.value set) =>
              match value, arguments with
              | some value, arguments => do parseFlags (← setFlag set flags name value) arguments
              | none, [] => .error (.missing name)
              | none, value :: arguments => do
                  parseFlags (← setFlag set flags name value) arguments

/-! ## main -/

variable [Tls] {Key Tag : Type}

/-- What `main` gets from outside: the file of the credentials, random bytes, the set of
the first `selfAddresses`, and what the certificate is read from. -/
structure Surroundings (Key : Type) where
  credentials : GoString → Except String GoString
  key : Except String Key
  self : GuardConfig → Except DestinationError (Finset Addr)
  reads : GoString → GoString → Reads

/-- What `main` comes to before it listens. -/
inductive Started (Key Tag : Type) where
  /-- `flag` prints the error and the usage. -/
  | usage (err : FlagError)
  /-- `log.Fatal`. -/
  | fatal (message : GoString)
  | acme (listen webroot : GoString)
  | proxy (listen : GoString) (auth : ProxyAuth Key Tag) (config : GuardConfig)
      (reloader : CertificateReloader)

/-- `main` for the proxy, from the flags on. -/
def startProxy (hmac : Hmac Key Tag) (outside : Surroundings Key) (flags : Flags) :
    Started Key Tag :=
  if flags.cert = [] ∨ flags.key = [] ∨ flags.credentials = [] ∨ flags.selfHost = [] then
    .fatal (go "--cert, --key, --credentials and --self-host are required")
  else match readCredentials (outside.credentials flags.credentials) with
    | .error err => .fatal (go err)
    | .ok (user, password) =>
        if containsAny flags.listen (go "\r\n") then .fatal (go "invalid listen address")
        else match newProxy hmac outside.key user password with
          | .error err => .fatal (go err)
          | .ok auth =>
              let config : GuardConfig := ⟨flags.selfHost, flags.extraSelf⟩
              match outside.self config with
              | .error err => .fatal err.message
              | .ok _ =>
                  match CertificateReloader.newCertificateReloader flags.cert flags.key
                    (outside.reads flags.cert flags.key) with
                  | .error err => .fatal err
                  | .ok reloader => .proxy flags.listen auth config reloader

/-- `main` with the arguments behind the name of the program. -/
def serverMain (hmac : Hmac Key Tag) (outside : Surroundings Key) (arguments : List GoString) :
    Started Key Tag :=
  match parseFlags {} arguments with
  | .error err => .usage err
  | .ok flags =>
      if flags.acmeOnly then
        if flags.acmeWebroot = [] then .fatal (go "--acme-webroot is required with --acme-only")
        else .acme flags.listen flags.acmeWebroot
      else startProxy hmac outside flags

/-! ## Arguments that were written -/

omit [Tls] in
/-- A flag and its value, as two arguments. -/
theorem parseFlags_value (name : GoString) {argument value : GoString} {set : Flags → GoString → Option Flags}
    {flags next : Flags} (hargument : flagWord argument = .flag name none)
    (hformal : formal.lookup name = some (.value set)) (hset : set flags value = some next)
    (rest : List GoString) :
    parseFlags flags (argument :: value :: rest) = parseFlags next rest := by
  rw [parseFlags, hargument]
  simp only [hformal, setFlag, hset]
  rfl

omit [Tls] in
/-- The addresses of the proxy are appended one after the other. -/
theorem parseFlags_selfAddress {values : List GoString} {addresses : List Addr}
    (h : List.Forall₂ (fun value a => Netip.parseAddr value = some a ∧ a.zone = [] ∧
      publicAddress a = true) values addresses) (flags : Flags) :
    parseFlags flags (values.flatMap fun value => [go "--self-address", value]) =
      .ok { flags with extraSelf := flags.extraSelf ++ addresses.map Addr.unmap } := by
  induction h generalizing flags with
  | nil => simp [parseFlags]
  | @cons value a values addresses ha _ ih =>
      rcases ha with ⟨hparse, hzone, hpublic⟩
      have hset : setSelfAddress flags.extraSelf value = some (flags.extraSelf ++ [a.unmap]) := by
        simp [setSelfAddress, hparse, hzone, hpublic]
      rw [List.flatMap_cons, List.cons_append, List.cons_append, List.nil_append,
        parseFlags_value (go "self-address") (by decide) rfl (by rw [hset]; rfl), ih]
      simp

omit [Netip] in
/-- With its flags set the proxy is started if what it gets from outside is there. -/
theorem exists_startProxy {hmac : Hmac Key Tag} {outside : Surroundings Key} {flags : Flags}
    (hcert : flags.cert ≠ []) (hkey : flags.key ≠ []) (hcredentials : flags.credentials ≠ [])
    (hhost : flags.selfHost ≠ []) (hlisten : containsAny flags.listen (go "\r\n") = false) :
    (∃ listen auth config reloader,
      startProxy hmac outside flags = .proxy listen auth config reloader) ↔
      (∃ line, readCredentials (outside.credentials flags.credentials) = .ok line) ∧
        (∃ key, outside.key = .ok key) ∧
        (∃ self, outside.self ⟨flags.selfHost, flags.extraSelf⟩ = .ok self) ∧
        ∃ reloader, CertificateReloader.newCertificateReloader flags.cert flags.key
          (outside.reads flags.cert flags.key) = .ok reloader := by
  have hrequired : ¬ (flags.cert = [] ∨ flags.key = [] ∨ flags.credentials = [] ∨
      flags.selfHost = []) := by simp [hcert, hkey, hcredentials, hhost]
  rw [startProxy, if_neg hrequired]
  cases readCredentials (outside.credentials flags.credentials) with
  | error err => simp
  | ok line =>
      cases hrandom : outside.key with
      | error err => simp [hlisten, newProxy]
      | ok key =>
          cases hself : outside.self ⟨flags.selfHost, flags.extraSelf⟩ with
          | error err => simp [hlisten, newProxy, hself]
          | ok self =>
              cases CertificateReloader.newCertificateReloader flags.cert flags.key
                (outside.reads flags.cert flags.key) with
              | error err => simp [hlisten, newProxy, hself]
              | ok reloader => simp [hlisten, newProxy, hself]

omit [Netip] in
/-- A proxy that is started has all its flags, credentials and its own addresses. -/
theorem startProxy_eq_proxy {hmac : Hmac Key Tag} {outside : Surroundings Key} {flags : Flags}
    {listen : GoString} {auth : ProxyAuth Key Tag} {config : GuardConfig}
    {reloader : CertificateReloader}
    (h : startProxy hmac outside flags = .proxy listen auth config reloader) :
    listen = flags.listen ∧ config = ⟨flags.selfHost, flags.extraSelf⟩ ∧ flags.selfHost ≠ [] ∧
      (∃ self, outside.self config = .ok self) ∧ ∃ user password,
        readCredentials (outside.credentials flags.credentials) = .ok (user, password) ∧
        newProxy hmac outside.key user password = .ok auth := by
  rw [startProxy] at h
  split at h
  · cases h
  rename_i hrequired
  split at h
  · cases h
  rename_i user password hread
  split at h
  · cases h
  split at h
  · cases h
  rename_i hauth
  simp only at h
  split at h
  · cases h
  rename_i self hself
  split at h
  · cases h
  · injection h with hlisten hauth' hconfig hreloader
    subst hlisten hauth' hconfig
    refine ⟨rfl, rfl, ?_, ⟨self, hself⟩, user, password, hread, hauth⟩
    intro hnone
    exact hrequired (Or.inr (Or.inr (Or.inr hnone)))

end

end BrowserVpn
