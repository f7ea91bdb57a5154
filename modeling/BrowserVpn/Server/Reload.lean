import BrowserVpn.Server.Strings
import Mathlib.Data.List.Induction

/-!
# Server.Reload — the certificate that is served

Every handshake reads the two files again. What is served is the last pair that
was read and could be parsed (`lastGood`); parsing is skipped for files that look
as they did then. The mutex orders the calls, so that a run is a list of what
their reads returned.
-/

namespace BrowserVpn

open Data

/-- What the server takes from `crypto/tls` and `crypto/sha256`, with the digest that
a variable of the type begins with. -/
class Tls where
  Certificate : Type
  Digest : Type
  decEqDigest : DecidableEq Digest
  zero : Digest
  sum256 : GoString → Digest
  x509KeyPair : GoString → GoString → Except GoString Certificate

instance [Tls] : DecidableEq Tls.Digest := Tls.decEqDigest

/-- Files are their own digests, and equal files are a pair. -/
@[reducible] def Tls.sample : Tls where
  Certificate := GoString
  Digest := GoString
  decEqDigest := inferInstance
  zero := []
  sum256 := id
  x509KeyPair certPEM keyPEM :=
    if certPEM = keyPEM then .ok certPEM else .error (go "private key does not match public key")

/-- What the two calls of `os.ReadFile` return. -/
structure Reads where
  certPEM : Except GoString GoString
  keyPEM : Except GoString GoString

section

variable [Tls]

/-- `certificateFiles`. -/
structure CertificateFiles where
  certificate : Tls.Digest
  privateKey : Tls.Digest
deriving DecidableEq

/-- `certificateReloader`. -/
structure CertificateReloader where
  certPath : GoString
  keyPath : GoString
  files : CertificateFiles
  certificate : Option Tls.Certificate
  lastFailure : GoString

namespace CertificateReloader

/-- `reload`: whether the certificate changed, and what is left. -/
def reload (reloader : CertificateReloader) (reads : Reads) :
    Except GoString Bool × CertificateReloader :=
  match reads.certPEM with
  | .error err => (.error (go "read certificate " ++ reloader.certPath ++ go ": " ++ err), reloader)
  | .ok certPEM =>
      match reads.keyPEM with
      | .error err =>
          (.error (go "read private key " ++ reloader.keyPath ++ go ": " ++ err), reloader)
      | .ok keyPEM =>
          let fingerprint : CertificateFiles := ⟨Tls.sum256 certPEM, Tls.sum256 keyPEM⟩
          if reloader.certificate.isSome && fingerprint = reloader.files then (.ok false, reloader)
          else match Tls.x509KeyPair certPEM keyPEM with
            | .error err => (.error (go "parse TLS certificate and key: " ++ err), reloader)
            | .ok certificate =>
                (.ok true, { reloader with certificate := some certificate, files := fingerprint })

/-- `newCertificateReloader`. -/
def newCertificateReloader (certPath keyPath : GoString) (reads : Reads) :
    Except GoString CertificateReloader :=
  match reload ⟨certPath, keyPath, ⟨Tls.zero, Tls.zero⟩, none, []⟩ reads with
  | (.error err, _) => .error (go "load TLS certificate: " ++ err)
  | (.ok _, reloader) => .ok reloader

/-- What a call of `getCertificate` leaves, logs and returns. -/
structure Handshake where
  reloader : CertificateReloader
  logged : Option GoString
  certificate : Option Tls.Certificate

def getCertificate (reloader : CertificateReloader) (reads : Reads) : Handshake :=
  match reload reloader reads with
  | (.error failure, next) =>
      if failure ≠ next.lastFailure then
        ⟨{ next with lastFailure := failure },
          some (go "TLS certificate reload failed; serving last valid certificate: " ++ failure),
          next.certificate⟩
      else ⟨next, none, next.certificate⟩
  | (.ok changed, next) =>
      ⟨{ next with lastFailure := [] },
        if changed then some (go "TLS certificate reloaded from " ++ next.certPath) else none,
        next.certificate⟩

/-- A run of calls. -/
def run (reloader : CertificateReloader) (calls : List Reads) : CertificateReloader :=
  calls.foldl (fun reloader reads => (reloader.getCertificate reads).reloader) reloader

/-! ## The last good pair -/

/-- What parsing makes of two files, if both could be read. -/
def parsed (reads : Reads) : Option Tls.Certificate :=
  match reads.certPEM, reads.keyPEM with
  | .ok certPEM, .ok keyPEM => (Tls.x509KeyPair certPEM keyPEM).toOption
  | _, _ => none

/-- The digests of two files that could be read. -/
def fingerprinted (reads : Reads) : Option CertificateFiles :=
  match reads.certPEM, reads.keyPEM with
  | .ok certPEM, .ok keyPEM => some ⟨Tls.sum256 certPEM, Tls.sum256 keyPEM⟩
  | _, _ => none

/-- The certificate of the most recent files that could be read and parsed. -/
def lastGood (history : List Reads) : Option Tls.Certificate :=
  (history.filterMap parsed).getLast?

theorem lastGood_concat (history : List Reads) (reads : Reads) :
    lastGood (history ++ [reads]) = (parsed reads).or (lastGood history) := by
  rw [lastGood, List.filterMap_append]
  cases h : parsed reads with
  | none => simp [h, lastGood]
  | some certificate => simp [h]

/-- What a reload does: it succeeds when the files can be parsed, and then has their
certificate and their digests; otherwise it changes nothing. -/
structure Reloaded (reloader : CertificateReloader) (reads : Reads)
    (result : Except GoString Bool × CertificateReloader) : Prop where
  failed : parsed reads = none → (∃ failure, failure ≠ [] ∧ result.1 = .error failure) ∧
    result.2 = reloader
  succeeded : ∀ certificate, parsed reads = some certificate →
    (∃ changed, result.1 = .ok changed) ∧ ∃ files, fingerprinted reads = some files ∧
      result.2 = { reloader with certificate := some certificate, files }

/-- The digests are those of files whose certificate is served. -/
def Fingerprints (reloader : CertificateReloader) : Prop :=
  ∀ certificate, reloader.certificate = some certificate →
    ∃ reads, parsed reads = some certificate ∧ fingerprinted reads = some reloader.files

/-- Without collisions the digests determine the certificate. -/
theorem parsed_of_fingerprinted (hsum : Function.Injective Tls.sum256) {reads other : Reads}
    {files : CertificateFiles} (h : fingerprinted reads = some files)
    (hother : fingerprinted other = some files) : parsed reads = parsed other := by
  obtain ⟨cert, key⟩ := reads
  obtain ⟨cert', key'⟩ := other
  cases cert with
  | error err => cases h
  | ok certPEM =>
      cases key with
      | error err => cases h
      | ok keyPEM =>
          cases cert' with
          | error err => cases hother
          | ok certPEM' =>
              cases key' with
              | error err => cases hother
              | ok keyPEM' =>
                  obtain ⟨hcert, hkey⟩ := CertificateFiles.mk.inj
                    (Option.some.inj (h.trans hother.symm))
                  rw [hsum hcert, hsum hkey]

theorem reload_cases (hsum : Function.Injective Tls.sum256) {reloader : CertificateReloader}
    (h : reloader.Fingerprints) (reads : Reads) : Reloaded reloader reads (reloader.reload reads) := by
  have hfailure : ∀ front rest : GoString, front ≠ [] → front ++ rest ≠ [] := by
    intro front rest hne hnil
    exact hne (List.append_eq_nil_iff.1 hnil).1
  obtain ⟨cert, key⟩ := reads
  cases cert with
  | error err =>
      refine ⟨fun _ => ⟨⟨_, ?_, rfl⟩, rfl⟩, fun certificate hparsed => by cases hparsed⟩
      simp only [List.append_assoc]
      exact hfailure _ _ (by decide)
  | ok certPEM =>
      cases key with
      | error err =>
          refine ⟨fun _ => ⟨⟨_, ?_, rfl⟩, rfl⟩, fun certificate hparsed => by cases hparsed⟩
          simp only [List.append_assoc]
          exact hfailure _ _ (by decide)
      | ok keyPEM =>
          have hparsed : parsed ⟨.ok certPEM, .ok keyPEM⟩ =
              (Tls.x509KeyPair certPEM keyPEM).toOption := rfl
          simp only [reload]
          split
          · -- the shortcut: these are the files that were parsed before
            rename_i hsame
            simp only [Bool.and_eq_true, decide_eq_true_eq] at hsame
            obtain ⟨certificate, hcertificate⟩ := Option.isSome_iff_exists.1 hsame.1
            obtain ⟨reads, hgood, hfiles⟩ := h certificate hcertificate
            have hfingerprint : fingerprinted ⟨.ok certPEM, .ok keyPEM⟩ = some reloader.files :=
              congrArg some hsame.2
            have hagain : parsed ⟨.ok certPEM, .ok keyPEM⟩ = some certificate := by
              rw [← hgood]
              exact parsed_of_fingerprinted hsum hfingerprint hfiles
            refine ⟨fun hnone => ?_, fun other hother => ⟨⟨false, rfl⟩, _, hfingerprint, ?_⟩⟩
            · rw [hagain] at hnone
              cases hnone
            · obtain rfl := Option.some.inj (hagain.symm.trans hother)
              rw [← hcertificate]
          · cases hpair : Tls.x509KeyPair certPEM keyPEM with
            | error err =>
                rw [hpair] at hparsed
                refine ⟨fun _ => ⟨⟨_, hfailure _ _ (by decide), rfl⟩, rfl⟩, fun certificate hgood => ?_⟩
                rw [hparsed] at hgood
                cases hgood
            | ok certificate =>
                rw [hpair] at hparsed
                refine ⟨fun hnone => ?_, fun other hother => ⟨⟨true, rfl⟩, _, rfl, ?_⟩⟩
                · rw [hparsed] at hnone
                  cases hnone
                · obtain rfl := Option.some.inj (hparsed.symm.trans hother)
                  rfl

/-! ## Runs -/

/-- What holds of a reloader after the reads of `history`, the latest last. -/
structure Serving (history : List Reads) (reloader : CertificateReloader) : Prop where
  certificate : reloader.certificate = lastGood history
  isSome : reloader.certificate.isSome = true
  fingerprints : reloader.Fingerprints

/-- After a reload that succeeds, whatever came before it. -/
theorem Serving.of_parsed {reloader : CertificateReloader} {reads : Reads}
    {certificate : Tls.Certificate} (hcertificate : reloader.certificate = some certificate)
    (hparsed : parsed reads = some certificate)
    (hfiles : fingerprinted reads = some reloader.files) (history : List Reads) :
    Serving (history ++ [reads]) reloader := by
  refine ⟨?_, by rw [hcertificate]; rfl, fun other hother => ?_⟩
  · rw [hcertificate, lastGood_concat, hparsed, Option.some_or]
  · obtain rfl := Option.some.inj (hcertificate.symm.trans hother)
    exact ⟨reads, hparsed, hfiles⟩

/-- How a call is answered after the reads of `history`. -/
structure Answered (history : List Reads) (reloader : CertificateReloader) (reads : Reads) :
    Prop where
  /-- There is a certificate, that of the last good pair. -/
  served : ∃ certificate, (reloader.getCertificate reads).certificate = some certificate ∧
    lastGood (history ++ [reads]) = some certificate
  /-- A reload succeeds exactly when parsing does, -/
  succeeds : (∃ changed, (reloader.reload reads).1 = .ok changed) ↔ (parsed reads).isSome = true
  /-- changes nothing when it fails, -/
  kept : ∀ failure, (reloader.reload reads).1 = .error failure →
    (reloader.getCertificate reads).reloader.certificate = reloader.certificate ∧
      (reloader.getCertificate reads).reloader.files = reloader.files
  /-- and its failure is what is remembered. -/
  remembered : (reloader.getCertificate reads).reloader.lastFailure = [] ↔
    ∃ changed, (reloader.reload reads).1 = .ok changed

theorem getCertificate_of_ok {reloader next : CertificateReloader} {reads : Reads} {changed : Bool}
    (h : reloader.reload reads = (.ok changed, next)) :
    (reloader.getCertificate reads).reloader = { next with lastFailure := [] } ∧
      (reloader.getCertificate reads).certificate = next.certificate := by
  rw [getCertificate, h]
  exact ⟨rfl, rfl⟩

theorem getCertificate_of_error {reloader next : CertificateReloader} {reads : Reads}
    {failure : GoString} (h : reloader.reload reads = (.error failure, next)) :
    (reloader.getCertificate reads).reloader = { next with lastFailure := failure } ∧
      (reloader.getCertificate reads).certificate = next.certificate := by
  rw [getCertificate, h]
  by_cases hnew : failure = next.lastFailure
  · simp [hnew]
  · simp [hnew]

/-- One call: what holds before it holds after it, and it is answered. -/
theorem getCertificate_serving (hsum : Function.Injective Tls.sum256) {history : List Reads}
    {reloader : CertificateReloader} (h : Serving history reloader) (reads : Reads) :
    Serving (history ++ [reads]) (reloader.getCertificate reads).reloader ∧
      Answered history reloader reads := by
  have hcases := reload_cases hsum h.fingerprints reads
  have hpair : reloader.reload reads = ((reloader.reload reads).1, (reloader.reload reads).2) := rfl
  cases hparsed : parsed reads with
  | none =>
      obtain ⟨⟨failure, hfailure, herror⟩, hsame⟩ := hcases.failed hparsed
      rw [herror, hsame] at hpair
      obtain ⟨hnext, hserved⟩ := getCertificate_of_error hpair
      have hlast : lastGood (history ++ [reads]) = reloader.certificate := by
        rw [lastGood_concat, hparsed, Option.none_or, h.certificate]
      refine ⟨⟨?_, ?_, ?_⟩, ⟨?_, ?_, fun _ _ => ?_, ?_⟩⟩
      · rw [hnext, hlast]
      · rw [hnext]
        exact h.isSome
      · rw [hnext]
        exact h.fingerprints
      · obtain ⟨certificate, hcertificate⟩ := Option.isSome_iff_exists.1 h.isSome
        exact ⟨certificate, hserved.trans hcertificate, hlast.trans hcertificate⟩
      · simp [herror, hparsed]
      · rw [hnext]
        exact ⟨rfl, rfl⟩
      · rw [hnext, herror]
        simp [hfailure]
  | some certificate =>
      obtain ⟨⟨changed, hok⟩, files, hfiles, hset⟩ := hcases.succeeded certificate hparsed
      rw [hok, hset] at hpair
      obtain ⟨hnext, hserved⟩ := getCertificate_of_ok hpair
      have hlast : lastGood (history ++ [reads]) = some certificate := by
        rw [lastGood_concat, hparsed, Option.some_or]
      refine ⟨?_, ⟨⟨certificate, hserved, hlast⟩, ?_, fun failure herror => ?_, ?_⟩⟩
      · rw [hnext]
        exact .of_parsed rfl hparsed hfiles history
      · simp [hok, hparsed]
      · rw [hok] at herror
        cases herror
      · rw [hnext, hok]
        simp

/-- A constructor that succeeds has read a good pair. -/
theorem newCertificateReloader_serving (hsum : Function.Injective Tls.sum256)
    {certPath keyPath : GoString} {first : Reads} {reloader : CertificateReloader}
    (h : newCertificateReloader certPath keyPath first = .ok reloader) :
    Serving [first] reloader ∧ reloader.lastFailure = [] := by
  set empty : CertificateReloader := ⟨certPath, keyPath, ⟨Tls.zero, Tls.zero⟩, none, []⟩ with hempty
  have hcases : Reloaded empty first (empty.reload first) := by
    refine reload_cases hsum (fun certificate hnone => ?_) first
    cases hnone
  rw [newCertificateReloader, ← hempty] at h
  split at h
  · cases h
  rename_i changed next hreload
  obtain rfl := Except.ok.inj h
  rw [hreload] at hcases
  cases hparsed : parsed first with
  | none =>
      obtain ⟨⟨failure, -, herror⟩, -⟩ := hcases.failed hparsed
      cases herror
  | some certificate =>
      obtain ⟨-, files, hfiles, hnext⟩ := hcases.succeeded certificate hparsed
      simp only at hnext
      rw [hnext]
      exact ⟨.of_parsed rfl hparsed hfiles [], rfl⟩

theorem run_concat (reloader : CertificateReloader) (calls : List Reads) (reads : Reads) :
    reloader.run (calls ++ [reads]) = ((reloader.run calls).getCertificate reads).reloader := by
  rw [run, List.foldl_append]
  rfl

/-- In every run the last good pair is served, as if it were parsed every time. -/
theorem serves_last_good (hsum : Function.Injective Tls.sum256) {certPath keyPath : GoString}
    {first : Reads} {reloader : CertificateReloader}
    (h : newCertificateReloader certPath keyPath first = .ok reloader) :
    reloader.lastFailure = [] ∧
      ∀ calls, (reloader.run calls).certificate = lastGood (first :: calls) ∧
        ∀ reads, Answered (first :: calls) (reloader.run calls) reads := by
  obtain ⟨hstart, hfailure⟩ := newCertificateReloader_serving hsum h
  have hrun : ∀ calls, Serving (first :: calls) (reloader.run calls) := by
    intro calls
    induction calls using List.reverseRecOn with
    | nil => exact hstart
    | append_singleton calls reads ih =>
        rw [run_concat]
        exact (getCertificate_serving hsum ih reads).1
  refine ⟨hfailure, fun calls => ⟨(hrun calls).certificate, fun reads => ?_⟩⟩
  exact (getCertificate_serving hsum (hrun calls) reads).2

end CertificateReloader

end

section

attribute [local instance] Tls.sample

/-- A pair, a new certificate next to the old key, and both again. -/
theorem CertificateReloader.serves_last_good_sample :
    ∃ reloader, newCertificateReloader (go "cert.pem") (go "key.pem") ⟨.ok [1], .ok [1]⟩ =
        .ok reloader ∧
      (reloader.run [⟨.ok [2], .ok [1]⟩, ⟨.ok [2], .ok [2]⟩]).certificate =
        lastGood [⟨.ok [1], .ok [1]⟩, ⟨.ok [2], .ok [1]⟩, ⟨.ok [2], .ok [2]⟩] := by
  refine ⟨_, rfl, ?_⟩
  exact ((serves_last_good Function.injective_id (by rfl)).2 _).1

end

end BrowserVpn
