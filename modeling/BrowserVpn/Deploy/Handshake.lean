import BrowserVpn.Deploy.Renewal
import BrowserVpn.Server.Reload

/-!
# Deploy.Handshake — serving a certificate while it changes

The proxy reads `tls/current/fullchain.pem` and `tls/current/privkey.pem` at every
handshake, one after the other, and between the two the manager can switch `current`,
switch it back or be killed. Whatever the two do, what is served was made of files that
were published, never of a key and a certificate that do not belong together; and a
handshake that no switch comes into serves what `current` names.
-/

namespace BrowserVpn.Manager

open Async Data

/-! ## Reading through `current` -/

/-- What `os.ReadFile` can answer: the file that `current` leads to, or any error. -/
def Tls.Answers (s : Tls) (file : PairFile) : Except GoString GoString → Prop
  | .ok data => s.tree.contents [current, file.name] = some data
  | .error _ => True

theorem Tls.Answers.accepted {s : Tls} {file : PairFile} {data : Bytes} (hs : s.Consistent)
    (h : s.Answers file (.ok data)) : ∃ pair ∈ s.accepted, file.of pair = data := by
  rcases consistent_names hs h with ⟨v, -, -, pair, hpair, -, hsame⟩
  exact ⟨pair, hpair, hsame⟩

/-- What was read is of accepted pairs, the certificate and the key perhaps of two. -/
structure Backed (s : Tls) (reads : Reads) : Prop where
  certificate : ∀ cert, reads.certPEM = .ok cert → ∃ pair ∈ s.accepted, pair.1 = cert
  key : ∀ key, reads.keyPEM = .ok key → ∃ pair ∈ s.accepted, pair.2 = key

theorem Backed.mono {s s' : Tls} {reads : Reads} (h : Backed s reads)
    (hsub : s.accepted ⊆ s'.accepted) : Backed s' reads := by
  constructor
  · intro cert hcert
    rcases h.certificate cert hcert with ⟨pair, hpair, hsame⟩
    exact ⟨pair, hsub hpair, hsame⟩
  · intro key hkey
    rcases h.key key hkey with ⟨pair, hpair, hsame⟩
    exact ⟨pair, hsub hpair, hsame⟩

theorem Step.reached {w w' : World} {a : Act} (h : Step w a w') (hw : w.Reached) : w'.Reached := by
  rcases hw with ⟨acts, hruns⟩
  exact ⟨_, hruns.snoc h⟩

theorem Step.accepted {w w' : World} {a : Act} (h : Step w a w') :
    w.tls.accepted ⊆ w'.tls.accepted := by
  cases h with
  | calls path =>
      have hmoves := path.move (R := fun s t : Tls => s.accepted ⊆ t.accepted)
        (fun _ => List.Subset.refl _) (fun h h' => List.Subset.trans h h') effect_accepted
      exact hmoves.1
  | _ => exact List.Subset.refl _

/-- Where `current` is not replaced it shows the same pair. -/
theorem Tls.Shows.later {w w' : World} {acts : List Act} {cert key : Bytes} (hw : w.Sound)
    (h : Manager.Runs w acts w') (hno : ∀ a ∈ acts, ¬a.Replaces) (hshows : w.tls.Shows cert key) :
    w'.tls.Shows cert key := by
  rcases h.sound hw with ⟨-, hkept, hnow⟩
  rcases consistent_names hw.consistent hshows.fullchain with
    ⟨v, hversion, hnode, pair, -, hnames, hcert⟩
  obtain rfl : pair.1 = cert := hcert
  obtain rfl : pair.2 = key := Option.some.inj (hnames.shows.privkey.symm.trans hshows.privkey)
  exact (hnames.of_same (hkept v hversion hnode) (hnow hno)).shows

/-! ## The proxy beside the manager -/

section

variable [BrowserVpn.Tls]

/-- The manager's world; the reloader of the proxy, once it has started; what the
reload that is going on has read of the certificate file; and what was served, the
latest last. -/
structure Live where
  world : World
  reloader : Option CertificateReloader
  reading : Option (Except GoString GoString)
  served : List BrowserVpn.Tls.Certificate

/-- An act of the manager, the two reads of a reload, and the end of the proxy. -/
inductive Event where
  | manager (a : Act)
  | readCertificate (r : Except GoString GoString)
  | readKey (r : Except GoString GoString)
  | exit

def certPath : GoString := go "/runtime/tls/current/fullchain.pem"

def keyPath : GoString := go "/runtime/tls/current/privkey.pem"

namespace Live

def initial : Live := ⟨.initial, none, none, []⟩

/-- Where the proxy is down the reload is that of `newCertificateReloader`, and the
proxy ends if it fails. After a certificate that could not be read, what is read of the
key does not matter. -/
inductive Step (l : Live) : Event → Live → Prop where
  | manager {a : Act} {w : World} (step : Manager.Step l.world a w) :
      Step l (.manager a) { l with world := w }
  | readCertificate {r : Except GoString GoString} (idle : l.reading = none)
      (answers : l.world.tls.Answers .fullchain r) :
      Step l (.readCertificate r) { l with reading := some r }
  | start {cert key : Except GoString GoString} {reloader : CertificateReloader}
      (down : l.reloader = none) (reading : l.reading = some cert)
      (answers : l.world.tls.Answers .privkey key)
      (started : CertificateReloader.newCertificateReloader certPath keyPath ⟨cert, key⟩ = .ok reloader) :
      Step l (.readKey key) { l with reloader := some reloader, reading := none }
  | refuse {cert key : Except GoString GoString} {err : GoString} (down : l.reloader = none)
      (reading : l.reading = some cert) (answers : l.world.tls.Answers .privkey key)
      (failed : CertificateReloader.newCertificateReloader certPath keyPath ⟨cert, key⟩ = .error err) :
      Step l (.readKey key) { l with reading := none }
  | handshake {cert key : Except GoString GoString} {reloader : CertificateReloader}
      (up : l.reloader = some reloader) (reading : l.reading = some cert)
      (answers : l.world.tls.Answers .privkey key) :
      Step l (.readKey key)
        { l with
          reloader := some (reloader.getCertificate ⟨cert, key⟩).reloader
          reading := none
          served := l.served ++ (reloader.getCertificate ⟨cert, key⟩).certificate.toList }
  | exit : Step l .exit { l with reloader := none, reading := none }

inductive Runs (l : Live) : List Event → Live → Prop where
  | nil : Runs l [] l
  | snoc {events : List Event} {e : Event} {m n : Live} (before : Runs l events m)
      (last : Step m e n) : Runs l (events ++ [e]) n

end Live

/-! ## What is served was published -/

structure Live.Sound (l : Live) : Prop where
  reached : l.world.Reached
  reading : ∀ cert, l.reading = some (.ok cert) → ∃ pair ∈ l.world.tls.accepted, pair.1 = cert
  serving : ∀ reloader, l.reloader = some reloader → ∃ history,
    CertificateReloader.Serving history reloader ∧ ∀ reads ∈ history, Backed l.world.tls reads
  served : ∀ c ∈ l.served, ∃ reads, Backed l.world.tls reads ∧
    CertificateReloader.parsed reads = some c

theorem Live.sound_initial : Live.initial.Sound :=
  ⟨⟨[], .nil⟩, by rintro cert ⟨⟩, by rintro reloader ⟨⟩, by rintro c ⟨⟩⟩

/-- The two reads of a reload. -/
theorem Live.Sound.backed {l : Live} (hl : l.Sound) {cert key : Except GoString GoString}
    (hreading : l.reading = some cert) (hkey : l.world.tls.Answers .privkey key) :
    Backed l.world.tls ⟨cert, key⟩ := by
  constructor
  · rintro cert' rfl
    exact hl.reading cert' hreading
  · rintro key' rfl
    exact hkey.accepted hl.reached.sound.consistent

theorem Live.Step.sound (hsum : Function.Injective BrowserVpn.Tls.sum256) {l l' : Live} {e : Event}
    (h : Live.Step l e l') (hl : l.Sound) : l'.Sound := by
  cases h with
  | manager step =>
      have hsub := step.accepted
      constructor
      · exact step.reached hl.reached
      · intro cert hcert
        rcases hl.reading cert hcert with ⟨pair, hpair, hsame⟩
        exact ⟨pair, hsub hpair, hsame⟩
      · intro reloader hreloader
        rcases hl.serving reloader hreloader with ⟨history, hserving, hbacked⟩
        exact ⟨history, hserving, fun reads hreads => (hbacked reads hreads).mono hsub⟩
      · intro c hc
        rcases hl.served c hc with ⟨reads, hreads, hparsed⟩
        exact ⟨reads, hreads.mono hsub, hparsed⟩
  | readCertificate idle answers =>
      refine ⟨hl.reached, ?_, hl.serving, hl.served⟩
      intro cert hcert
      obtain rfl := Option.some.inj hcert
      exact answers.accepted hl.reached.sound.consistent
  | start down reading answers started =>
      refine ⟨hl.reached, by rintro cert ⟨⟩, ?_, hl.served⟩
      intro reloader hreloader
      obtain rfl := Option.some.inj hreloader
      have hserving := CertificateReloader.newCertificateReloader_serving hsum started
      refine ⟨_, hserving.1, ?_⟩
      intro reads hreads
      rw [List.mem_singleton.1 hreads]
      exact hl.backed reading answers
  | refuse down reading answers failed => exact ⟨hl.reached, by rintro cert ⟨⟩, hl.serving, hl.served⟩
  | @handshake cert key reloader up reading answers =>
      rcases hl.serving reloader up with ⟨history, hserving, hbacked⟩
      rcases CertificateReloader.getCertificate_serving hsum hserving ⟨cert, key⟩ with ⟨hnext, hanswered⟩
      have hbacked' : ∀ reads ∈ history ++ [⟨cert, key⟩], Backed l.world.tls reads := by
        intro reads hreads
        rcases List.mem_append.1 hreads with hold | hnew
        · exact hbacked reads hold
        · rw [List.mem_singleton.1 hnew]
          exact hl.backed reading answers
      refine ⟨hl.reached, by rintro cert ⟨⟩, ?_, ?_⟩
      · intro reloader' hreloader
        obtain rfl := Option.some.inj hreloader
        exact ⟨_, hnext, hbacked'⟩
      · intro c hc
        rcases List.mem_append.1 hc with hold | hnew
        · exact hl.served c hold
        -- the certificate is that of the last good pair
        rcases hanswered.served with ⟨certificate, hcertificate, hlast⟩
        rw [hcertificate, Option.toList_some, List.mem_singleton] at hnew
        subst hnew
        have hmem := List.mem_of_getLast? hlast
        rcases List.mem_filterMap.1 hmem with ⟨reads, hreads, hparsed⟩
        exact ⟨reads, hbacked' reads hreads, hparsed⟩
  | exit => exact ⟨hl.reached, by rintro cert ⟨⟩, by rintro reloader ⟨⟩, hl.served⟩

theorem Live.Runs.sound (hsum : Function.Injective BrowserVpn.Tls.sum256) {l l' : Live}
    {events : List Event} (h : Live.Runs l events l') (hl : l.Sound) : l'.Sound := by
  induction h with
  | nil => exact hl
  | snoc _ last ih => exact last.sound hsum ih

/-! ## A handshake that no switch comes into -/

theorem Live.Runs.of_manager {l l' : Live} {acts : List Act}
    (h : Live.Runs l (acts.map .manager) l') :
    Manager.Runs l.world acts l'.world ∧ l'.reloader = l.reloader ∧ l'.reading = l.reading ∧
      l'.served = l.served := by
  generalize hevents : acts.map Event.manager = events at h
  induction h generalizing acts with
  | nil =>
      rw [List.map_eq_nil_iff.1 hevents]
      exact ⟨.nil, rfl, rfl, rfl⟩
  | snoc _ last ih =>
      rcases List.map_eq_append_iff.1 hevents with ⟨acts', rest, rfl, hbefore, hrest⟩
      rcases List.map_eq_singleton_iff.1 hrest with ⟨a, rfl, rfl⟩
      rcases ih hbefore with ⟨hruns, hreloader, hreading, hserved⟩
      cases last with
      | manager step => exact ⟨hruns.snoc step, hreloader, hreading, hserved⟩

/-- No published key fits a certificate that was published with another one. -/
def Tls.Unmixable (s : Tls) : Prop :=
  ∀ pair ∈ s.accepted, ∀ other ∈ s.accepted, ∀ c,
    BrowserVpn.Tls.x509KeyPair pair.1 other.2 = .ok c → other.2 = pair.2

/-- Whatever the manager does meanwhile, each certificate that is served was made of a
certificate file and a key file of accepted pairs, so of one pair if no two can be mixed;
and a handshake whose reads succeed while `current` is not replaced serves the pair that
`current` shows. -/
theorem served_is_published (hsum : Function.Injective BrowserVpn.Tls.sum256) {events : List Event}
    {l : Live} (h : Live.Runs .initial events l) :
    (∀ c ∈ l.served, ∃ pair ∈ l.world.tls.accepted, ∃ other ∈ l.world.tls.accepted,
      BrowserVpn.Tls.x509KeyPair pair.1 other.2 = .ok c ∧
        (l.world.tls.Unmixable → BrowserVpn.Tls.x509KeyPair pair.1 pair.2 = .ok c)) ∧
      ∀ (reloader : CertificateReloader) (cert key : Bytes) (acts : List Act) (l₁ l₂ l' : Live),
        l.reloader = some reloader → l.Step (.readCertificate (.ok cert)) l₁ →
        l₁.Runs (acts.map .manager) l₂ → (∀ a ∈ acts, ¬a.Replaces) →
        l₂.Step (.readKey (.ok key)) l' →
        l'.world.tls.Shows cert key ∧ (cert, key) ∈ l'.world.tls.accepted ∧
          ∀ c, BrowserVpn.Tls.x509KeyPair cert key = .ok c → l'.served = l.served ++ [c] := by
  have hl := h.sound hsum Live.sound_initial
  constructor
  · intro c hc
    rcases hl.served c hc with ⟨⟨cert, key⟩, hbacked, hparsed⟩
    cases cert with
    | error err => cases hparsed
    | ok cert =>
        cases key with
        | error err => cases hparsed
        | ok key =>
            rcases hbacked.certificate cert rfl with ⟨pair, hpair, rfl⟩
            rcases hbacked.key key rfl with ⟨other, hother, rfl⟩
            have hpaired : BrowserVpn.Tls.x509KeyPair pair.1 other.2 = .ok c := by
              have hoption : (BrowserVpn.Tls.x509KeyPair pair.1 other.2).toOption = some c := hparsed
              cases hresult : BrowserVpn.Tls.x509KeyPair pair.1 other.2 with
              | error err =>
                  rw [hresult] at hoption
                  cases hoption
              | ok c' =>
                  rw [hresult] at hoption
                  rw [Option.some.inj hoption]
            refine ⟨pair, hpair, other, hother, hpaired, ?_⟩
            intro hunmixable
            rw [← hunmixable pair hpair other hother c hpaired]
            exact hpaired
  · intro reloader cert key acts l₁ l₂ l' hup hfirst hruns hno hlast
    cases hfirst with
    | readCertificate idle answers =>
        rcases hruns.of_manager with ⟨hworld, hreloader, hreading, hserved⟩
        have hup₂ : l₂.reloader = some reloader := hreloader.trans hup
        have hsound := (hworld.sound hl.reached.sound).1
        rcases consistent_names hl.reached.sound.consistent answers with
          ⟨v, hversion, hnode, pair, -, hnames, hcert⟩
        obtain rfl : pair.1 = cert := hcert
        have hshows := hnames.shows.later hl.reached.sound hworld hno
        cases hlast with
        | start down => cases hup₂.symm.trans down
        | refuse down => cases hup₂.symm.trans down
        | @handshake cert' key' reloader' up reading answers' =>
            obtain rfl : reloader = reloader' := Option.some.inj (hup₂.symm.trans up)
            obtain rfl : .ok pair.1 = cert' := Option.some.inj (hreading.symm.trans reading)
            obtain rfl : pair.2 = key := Option.some.inj (hshows.privkey.symm.trans answers')
            refine ⟨hshows, hshows.accepted hsound.consistent, ?_⟩
            intro c hpaired
            rcases hl.serving reloader hup with ⟨history, hserving, -⟩
            have hanswered := (CertificateReloader.getCertificate_serving hsum hserving
              ⟨.ok pair.1, .ok pair.2⟩).2
            rcases hanswered.served with ⟨certificate, hcertificate, hlast⟩
            have hparsed : CertificateReloader.parsed ⟨.ok pair.1, .ok pair.2⟩ = some c := by
              simp only [CertificateReloader.parsed, hpaired]
              rfl
            rw [CertificateReloader.lastGood_concat, hparsed, Option.some_or] at hlast
            obtain rfl := Option.some.inj hlast
            show l₂.served ++ _ = _
            rw [hcertificate, hserved]
            rfl

end

section

attribute [local instance] BrowserVpn.Tls.sample

/-- A certificate is published, the proxy starts and answers one handshake. -/
theorem served_is_published_sample :
    ∃ (events : List Event) (l : Live), Live.Runs .initial events l ∧ l.served = [[1]] ∧
      ∃ pair ∈ l.world.tls.accepted, ∃ other ∈ l.world.tls.accepted,
        BrowserVpn.Tls.x509KeyPair pair.1 other.2 = .ok ([1] : GoString) := by
  have hplay : (play (sampleWorld 'a' [1] [1] fun _ _ => false) (runCycle ⟨1, 1⟩) .empty).map
      (fun x => (x.2.2.tree.contents [current, PairFile.fullchain.name],
        x.2.2.tree.contents [current, PairFile.privkey.name])) = some (some [1], some [1]) := by
    decide +kernel
  rcases Option.map_eq_some_iff.1 hplay with ⟨⟨ms, r, s⟩, hrun, hcontents⟩
  rcases Prod.mk.inj hcontents with ⟨hcert, hprivkey⟩
  have hkey : s.Answers .privkey (.ok [1]) := hprivkey
  have hpath : Path effect (runCycle ⟨1, 1⟩) .empty ms (.done r) s :=
    Path.of_play (fun _ _ _ _ => sampleWorld_effect) hrun
  have hstart := Live.Runs.snoc (.snoc (.snoc (.nil (l := Live.initial))
    (.manager (.start ⟨1, 1⟩))) (.manager (.calls hpath))) (.manager .finish)
  have hup := Live.Runs.snoc (.snoc hstart (.readCertificate (r := .ok [1]) rfl hcert))
    (.start rfl rfl hkey rfl)
  have hserved := Live.Runs.snoc (.snoc hup (.readCertificate (r := .ok [1]) rfl hcert))
    (.handshake rfl rfl hkey)
  refine ⟨_, _, hserved, rfl, ?_⟩
  rcases (served_is_published Function.injective_id hserved).1 [1] (List.mem_singleton_self _) with
    ⟨pair, hpair, other, hother, hpaired, -⟩
  exact ⟨pair, hpair, other, hother, hpaired⟩

end

end BrowserVpn.Manager
