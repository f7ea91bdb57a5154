import BrowserVpn.Deploy.Runtime

/-!
# Deploy.Publication — one cycle of the manager

`run_cycle` of `manager.py` and what it is made of: a pair read from the lineage is
written into a staging directory, checked there, renamed to a version directory,
and `current` is switched to it by replacing one symbolic link. The live health
check follows, and a version that fails it gives way to the one before it.
-/

namespace BrowserVpn.Manager

open Async Data

variable {α : Type}

def request (c : Call) : Py c.Reply := Prog.await (A := api) c

/-- `while True`, for an execution that goes round at most so often. -/
def whileTrue : Nat → Py (Option α) → Py α
  | 0, _ => request .unfinished >>= Empty.elim
  | rounds + 1, body => do
      match ← body with
      | some a => return a
      | none => whileTrue rounds body

def second : Int := 1000000000

def proxyGid : Nat := 10001

/-! ## Files -/

def fsyncDirectory (path : Place) : Py Unit := do
  request (.openDirectory path)
  (request (.fsync path)).finallyDo (request (.close path))

/-- `atomic_write(directory / name, data)`. -/
def atomicWrite (directory : Place) (name : Name) (data : Bytes) : Py Unit := do
  let temporary ← request (.mkstemp ('.' :: name ++ ['.']) directory)
  let temporary := directory ++ [temporary]
  Prog.finallyDo
    (do
      request (.fdopen temporary)
      Prog.finallyDo
        (do
          request (.write temporary data)
          request (.fchown temporary proxyGid)
          request (.fchmod temporary 0o640)
          request (.fsync temporary))
        (request (.close temporary))
      request (.replace temporary (directory ++ [name]))
      fsyncDirectory directory)
    (do
      if ← request (.lexists temporary) then
        request (.unlink temporary))

/-! ## Certificate versions -/

def current : Name := "current".toList

/-- `Path(target).name`: the last component, empty ones and `.` left out. -/
def pathName (target : Name) : Name :=
  ((target.splitOn '/').filter fun part => part ≠ [] ∧ part ≠ ['.']).getLastD []

def refuseSymlink (target : Name) (file : PairFile) : Py Unit := do
  if ← request (.isSymlink [target, file.name]) then
    throw (.managerError "Published TLS files must not be symlinks")

def currentTarget : Py (Option Name) := do
  if !(← request (.lexists [current])) then
    return none
  if !(← request (.isSymlink [current])) then
    throw (.managerError "TLS current path must be a symlink")
  let target ← request (.readlink [current])
  if pathName target ≠ target ∨ ¬"version-".toList <+: target then
    throw (.managerError "TLS current symlink target is invalid")
  if ← request (.isSymlink [target]) then
    throw (.managerError "TLS version directory must not be a symlink")
  refuseSymlink target .fullchain
  refuseSymlink target .privkey
  return some target

def switchToVersion (name : Name) : Py Unit := do
  let token ← request (.tokenHex 8)
  let link : Place := [".current-".toList ++ token]
  Prog.finallyDo
    (do
      request (.symlinkTo link name)
      request (.replace link [current])
      fsyncDirectory [])
    (do
      if ← request (.lexists link) then
        request (.unlink link))

def matchingPublishedPair (certData keyData : Bytes) : Py Bool :=
  tryCatch
    (do
      if (← request (.readBytes [current, PairFile.fullchain.name])) = certData then
        return (← request (.readBytes [current, PairFile.privkey.name])) = keyData
      else
        return false)
    fun
      | .fileNotFound => return false
      | e => throw e

def validatePair (certificate privateKey : Place) : Py Unit :=
  tryCatch (request (.loadCertChain certificate privateKey)) fun e =>
    if e.isOsError then
      throw (.managerError "Certificate and private key are invalid or do not match")
    else throw e

/-- Both lineage files are there. -/
def lineageIsComplete : Py Bool := do
  if ← request (.lineageIsFile .fullchain) then
    request (.lineageIsFile .privkey)
  else
    return false

/-- What stands inside `try` in `publish_certificate`. -/
def publishStaging (staging version : Name) (certData keyData : Bytes) : Py Unit := do
  request (.chown [staging] proxyGid)
  atomicWrite [staging] PairFile.fullchain.name certData
  atomicWrite [staging] PairFile.privkey.name keyData
  validatePair [staging, PairFile.fullchain.name] [staging, PairFile.privkey.name]
  request (.replace [staging] [version])
  fsyncDirectory []
  switchToVersion version

def removeStaging (staging : Name) : Py Unit := do
  if ← request (.pathExists [staging]) then
    request (.rmtree [staging])

/-- The name of the version before, if a new one was published. -/
def publishCertificate : Py (Option Name) := do
  if !(← lineageIsComplete) then
    throw (.managerError "Certbot certificate lineage is incomplete")
  let certData ← request (.readLineage .fullchain)
  let keyData ← request (.readLineage .privkey)
  let previous ← currentTarget
  if ← matchingPublishedPair certData keyData then
    return none
  let token ← request (.tokenHex 12)
  let staging := ".staging-".toList ++ token
  let version := "version-".toList ++ token
  request (.mkdir [staging] 0o750)
  (publishStaging staging version certData keyData).finallyDo (removeStaging staging)
  return previous

/-! ## Child processes -/

/-- How often the loops that wait for a child and that retry the health check go
round. -/
structure Patience where
  polls : Nat
  checks : Nat

def exitMessage (child : Child) (result : Int) : String :=
  let detail :=
    if child.purpose = "Certbot" then "; inspect /certbot-state/logs" else ""
  child.purpose ++ " failed (exit " ++ toString result ++ detail ++ ")"

/-- One round of the loop that waits for a child. -/
def awaitChild (child : Child) (deadline : Int) : Py (Option Unit) := do
  match ← request (.poll child) with
  | some result =>
      if result ≠ 0 then
        throw (.managerError (exitMessage child result))
      return some ()
  | none =>
      if ← request .stopIsSet then
        throw .stopRequested
      if (← request .monotonic) ≥ deadline then
        throw (.managerError (child.purpose ++ " timed out"))
      request (.stopWait (min second (max 0 (deadline - (← request .monotonic)))))
      return none

/-- A child that is still running is ended before its error goes on. -/
def endChild (child : Child) : Py Unit := do
  if (← request (.poll child)) = none then
    request (.terminate child)
    if !(← request (.waitAtMost child (10 * second))) then
      request (.kill child)
      request (.wait child)

def runExternal (patience : Patience) (child : Child) (timeout : Int) : Py Unit := do
  request (.popen child)
  let deadline := (← request .monotonic) + timeout
  tryCatch (whileTrue patience.polls (awaitChild child deadline)) fun e => do
    if e.isOwn then
      endChild child
    throw e

/-- One round of the health check. -/
def tryHealthcheck (patience : Patience) (timeout : Nat) (deadline : Int) : Py (Option Unit) := do
  if ← request .stopIsSet then
    throw .stopRequested
  tryCatch
    (do
      let remaining := deadline - (← request .monotonic)
      runExternal patience .healthcheck (min (30 * second) (max second remaining))
      return some ())
    fun
      | .managerError _ => do
          if (← request .monotonic) ≥ deadline then
            throw (.managerError
              ("Proxy health check failed after " ++ toString timeout ++ " seconds"))
          request (.stopWait (min (2 * second) (max 0 (deadline - (← request .monotonic)))))
          return none
      | e => throw e

def runHealthcheck (patience : Patience) (timeout : Nat) : Py Unit := do
  let deadline := (← request .monotonic) + timeout * second
  whileTrue patience.checks (tryHealthcheck patience timeout deadline)

/-! ## The cycle -/

/-- Certbot's own failure is kept for later when there is a lineage all the same. -/
def runCertbot (patience : Patience) : Py (Option Raised) := do
  let first := !(← lineageIsComplete)
  tryCatch
    (do
      runExternal patience (.certbot first) (600 * second)
      return none)
    fun
      | .managerError message => do
          if ← lineageIsComplete then
            return some (.managerError message)
          else
            throw (.managerError message)
      | e => throw e

/-- `run_cycle` up to the health check. -/
def renewAndPublish (patience : Patience) : Py (Option Raised × Option Name) := do
  request (.setUp .prepareDirectories)
  request (.setUp .validateSettings)
  request (.setUp .ensureConfig)
  request (.setUp .ensureCredentials)
  request (.setUp .waitForAcme)
  let certbotFailure ← runCertbot patience
  let previous ← publishCertificate
  return (certbotFailure, previous)

/-- The handler of the health check. -/
def rollBack (previous : Option Name) (e : Raised) : Py Unit := do
  if e.isOwn then
    match previous with
    | some version => switchToVersion version
    | none => pure ()
  throw e

def runCycle (patience : Patience) : Py Unit := do
  let (certbotFailure, previous) ← renewAndPublish patience
  tryCatch (runHealthcheck patience 120) (rollBack previous)
  match certbotFailure with
  | some e => throw e
  | none => pure ()

end BrowserVpn.Manager
