import BrowserVpn.Async.Alone
import BrowserVpn.Data.Tree

/-!
# Deploy.Runtime — what the manager's cycle calls

The manager is one process: each call to the file system, to a child process or to
the clock is answered before the next one is made. `Tls` is the directory
`/runtime/tls`, which nothing else writes to; the certificate lineage is Certbot's,
so that whatever is read there is up to the caller.
-/

namespace BrowserVpn.Manager

open Async Data

abbrev Name := List Char

/-- A path below `/runtime/tls`. -/
abbrev Place := List Name

abbrev Bytes := List UInt8

/-- The exceptions that `main` tolerates. `FileNotFoundError` and `ssl.SSLError`
are `OSError`s. -/
inductive Raised where
  | managerError (message : String)
  | stopRequested
  | osError
  | fileNotFound
  | sslError
  | valueError
deriving DecidableEq

def Raised.isOsError : Raised → Bool
  | .osError | .fileNotFound | .sslError => true
  | _ => false

/-- `ManagerError` and `StopRequested`: only the manager itself raises them. -/
def Raised.isOwn : Raised → Bool
  | .managerError _ | .stopRequested => true
  | _ => false

/-- The two files of a certificate version and of the lineage. -/
inductive PairFile where
  | fullchain
  | privkey
deriving DecidableEq

def PairFile.name : PairFile → Name
  | .fullchain => "fullchain.pem".toList
  | .privkey => "privkey.pem".toList

/-- What `run_cycle` does before it comes to the certificate. None of it touches an
entry of `/runtime/tls`. -/
inductive SetUp where
  | prepareDirectories
  | validateSettings
  | ensureConfig
  | ensureCredentials
  | waitForAcme
deriving DecidableEq

/-- The child processes: Certbot, told whether to issue or to renew, and
`healthcheck.py`. -/
inductive Child where
  | certbot (first : Bool)
  | healthcheck
deriving DecidableEq

def Child.purpose : Child → String
  | .certbot _ => "Certbot"
  | .healthcheck => "Proxy health check"

inductive Call where
  | setUp (part : SetUp)
  | lineageIsFile (file : PairFile)
  | readLineage (file : PairFile)
  | popen (child : Child)
  | poll (child : Child)
  | terminate (child : Child)
  | kill (child : Child)
  | wait (child : Child)
  | waitAtMost (child : Child) (timeout : Int)
  | monotonic
  | stopIsSet
  | stopWait (timeout : Int)
  | tokenHex (bytes : Nat)
  | lexists (p : Place)
  | pathExists (p : Place)
  | isSymlink (p : Place)
  | readlink (p : Place)
  | readBytes (p : Place)
  | mkdir (p : Place) (mode : Nat)
  | chown (p : Place) (gid : Nat)
  | symlinkTo (p : Place) (target : Name)
  | replace (source target : Place)
  | unlink (p : Place)
  | rmtree (p : Place)
  | mkstemp (start : Name) (directory : Place)
  | fdopen (p : Place)
  | write (p : Place) (data : Bytes)
  | fchown (p : Place) (gid : Nat)
  | fchmod (p : Place) (mode : Nat)
  | fsync (p : Place)
  | close (p : Place)
  | openDirectory (p : Place)
  | loadCertChain (certificate privateKey : Place)
  | unfinished
deriving DecidableEq

/-- `monotonic` is in nanoseconds, `poll` answers the exit status of a child that
has ended, and `waitAtMost` whether it ended in time. `unfinished` has no answer: it
stands where a loop has gone round as often as an execution lets it. -/
@[reducible] def Call.Reply : Call → Type
  | .lineageIsFile _ | .stopIsSet | .lexists _ | .pathExists _ | .isSymlink _ => Bool
  | .waitAtMost _ _ => Bool
  | .readLineage _ | .readBytes _ => Bytes
  | .poll _ => Option Int
  | .monotonic => Int
  | .tokenHex _ | .readlink _ | .mkstemp _ _ => Name
  | .unfinished => Empty
  | _ => Unit

abbrev api : Api where
  Call := Call
  Reply := Call.Reply
  Error := Raised
  Var := Unit
  Write := Empty
  apply w := w.elim

abbrev Py := Prog api

/-- `/runtime/tls`, and the contents of the pairs that `load_cert_chain` has
accepted so far. -/
structure Tls where
  tree : Tree Name Bytes
  accepted : List (Bytes × Bytes)

namespace Tls

/-- An empty directory, before anything was checked. -/
def empty : Tls := ⟨.empty, []⟩

variable (s : Tls)

def setTree (tree : Tree Name Bytes) : Tls := { s with tree := tree }

/-- A new entry at `p`, where nothing may stand yet, with nothing below it. -/
def create (p : Place) (node : Node Name Bytes) : Option Tls :=
  if s.tree.hasParent (s.tree.real p) ∧ s.tree.node (s.tree.real p) = none then
    some (s.setTree ((s.tree.prune (s.tree.real p) fun _ => false).put (s.tree.real p) node))
  else none

/-- `rename(2)`: only an empty directory gives way to a directory, and no directory
to anything else. -/
def canReplace (p q : Place) : Bool :=
  match s.tree.node p with
  | none => false
  | some .directory =>
      s.tree.node q = none || s.tree.node q = some .directory && s.tree.isEmpty q
  | some _ => s.tree.node q ≠ some .directory

/-- The state after a call has answered, `none` where it cannot give that answer. -/
def perform : (c : Call) → c.Reply → Option Tls
  | .tokenHex n, token =>
      if token.length = 2 * n ∧ token.all (fun c => "0123456789abcdef".toList.contains c) then some s
      else none
  | .lexists p, found => if found = (s.tree.lstat p).isSome then some s else none
  | .pathExists p, found => if found = (s.tree.stat p).isSome then some s else none
  | .isSymlink p, found => if found = s.tree.isLink p then some s else none
  | .readlink p, target => if s.tree.lstat p = some (.link target) then some s else none
  | .readBytes p, data => if s.tree.contents p = some data then some s else none
  | .mkdir p _, _ => s.create p .directory
  | .symlinkTo p target, _ => s.create p (.link target)
  | .replace p q, _ =>
      if s.tree.hasParent (s.tree.real q) ∧ s.canReplace (s.tree.real p) (s.tree.real q) then
        some (s.setTree (s.tree.rename (s.tree.real p) (s.tree.real q)))
      else none
  | .unlink p, _ =>
      match s.tree.lstat p with
      | none | some .directory => none
      | some _ => some (s.setTree (s.tree.prune (s.tree.real p) fun _ => false))
  | .rmtree p, _ =>
      if s.tree.lstat p = some .directory then
        some (s.setTree (s.tree.prune (s.tree.real p) fun _ => false))
      else none
  | .mkstemp start directory, temporary =>
      if start <+: temporary then s.create (directory ++ [temporary]) (.file []) else none
  | .write p data, _ =>
      match s.tree.lstat p with
      | some (.file _) => some (s.setTree (s.tree.put (s.tree.real p) (.file data)))
      | _ => none
  | .loadCertChain certificate privateKey, _ =>
      match s.tree.contents certificate, s.tree.contents privateKey with
      | some cert, some key => some { s with accepted := (cert, key) :: s.accepted }
      | _, _ => none
  | .unfinished, _ => none
  | _, _ => some s

/-- What a call that is not atomic can leave when it is cut short. -/
def torn : Call → Tls → Prop
  | .write p _, s' =>
      ∃ old part, s.tree.lstat p = some (.file old) ∧
        s' = s.setTree (s.tree.put (s.tree.real p) (.file part))
  | .rmtree p, s' => ∃ keep, s' = s.setTree (s.tree.prune (s.tree.real p) keep)
  | _, _ => False

end Tls

/-- The exceptions of a call. `os.path.lexists` answers false instead, and the clock
and the stop event have none. -/
def Call.mayRaise : Call → Raised → Bool
  | .setUp _, _ => true
  | .lexists _, _ | .monotonic, _ | .stopIsSet, _ | .stopWait _, _ | .unfinished, _ => false
  | _, e => !e.isOwn

/-- A call answers, or raises before, in the middle of or after its effect. -/
def effect : Effect api Tls := fun s c r s' =>
  match r with
  | .ok a => s.perform c a = some s'
  | .error e =>
      c.mayRaise e ∧ s'.accepted = s.accepted ∧
        (s' = s ∨ (∃ a, s.perform c a = some s') ∨ s.torn c s')

/-! ## One concrete environment -/

/-- Where nothing goes wrong: `digit` makes the tokens, `cert` and `key` are the
lineage, children exit with 0 and no time passes. -/
def Tls.reply (s : Tls) (digit : Char) (cert key : Bytes) : (c : Call) → Option c.Reply
  | .lineageIsFile _ => some true
  | .readLineage .fullchain => some cert
  | .readLineage .privkey => some key
  | .poll _ => some (some 0)
  | .waitAtMost _ _ => some true
  | .monotonic => some 0
  | .stopIsSet => some false
  | .tokenHex n => some (List.replicate (2 * n) digit)
  | .lexists p => some (s.tree.lstat p).isSome
  | .pathExists p => some (s.tree.stat p).isSome
  | .isSymlink p => some (s.tree.isLink p)
  | .readlink p =>
      match s.tree.lstat p with
      | some (.link target) => some target
      | _ => none
  | .readBytes p => s.tree.contents p
  | .mkstemp start _ => some (start ++ [digit])
  | .unfinished => none
  | .setUp _ | .popen _ | .terminate _ | .kill _ | .wait _ | .stopWait _ | .mkdir .. | .chown ..
  | .symlinkTo .. | .replace .. | .unlink _ | .rmtree _ | .fdopen _ | .write .. | .fchown ..
  | .fchmod .. | .fsync _ | .close _ | .openDirectory _ | .loadCertChain .. => some ()

/-- A call that cannot answer raises, before it has done anything. -/
def Tls.refuse (s : Tls) (c : Call) : Option (api.Settled c.Reply × Tls) :=
  if c.mayRaise .fileNotFound then some (.error .fileNotFound, s) else none

/-- That environment, except that `fails` raises. -/
def sampleWorld (digit : Char) (cert key : Bytes) (fails : Tls → Call → Bool) (s : Tls)
    (c : Call) : Option (api.Settled c.Reply × Tls) :=
  match if fails s c then none else s.reply digit cert key c with
  | none => s.refuse c
  | some a =>
      match s.perform c a with
      | none => s.refuse c
      | some s' => some (.ok a, s')

theorem Tls.refuse_effect {s s' : Tls} {c : Call} {r : api.Settled c.Reply}
    (h : s.refuse c = some (r, s')) : effect s c r s' := by
  rw [refuse] at h
  split at h
  · rename_i hmay
    obtain ⟨rfl, rfl⟩ := Prod.mk.inj (Option.some.inj h)
    exact ⟨hmay, rfl, .inl rfl⟩
  · cases h

theorem sampleWorld_effect {digit : Char} {cert key : Bytes} {fails : Tls → Call → Bool} {s s' : Tls}
    {c : Call} {r : api.Settled c.Reply}
    (h : sampleWorld digit cert key fails s c = some (r, s')) : effect s c r s' := by
  simp only [sampleWorld] at h
  split at h
  · exact Tls.refuse_effect h
  · split at h
    · exact Tls.refuse_effect h
    · rename_i hperform
      obtain ⟨rfl, rfl⟩ := Prod.mk.inj (Option.some.inj h)
      exact hperform

end BrowserVpn.Manager
