import BrowserVpn.Data.Run
import BrowserVpn.Server.Strings
import Mathlib.Data.Finset.Image
import Mathlib.Data.Finset.Lattice.Basic

/-!
# Server.Guard — the addresses of the proxy itself

`selfAddresses` as concurrent requests run it. A call takes the mutex up to three
times: to decide whether to look the name of the proxy up, to record what the
lookup returned, and to read what is known. The lookup itself runs without the
mutex, and so does the listing of the interfaces, so that a call is a `CallPhase` and
the steps of different calls interleave.
-/

namespace BrowserVpn

open Data

/-- Why `destinations` fails. `forbidden` is `errForbidden`, and `selfUnavailable`
wraps `errSelfUnavailable`. -/
inductive DestinationError where
  | invalid (message : GoString)
  | selfUnavailable (detail : GoString)
  | forbidden
  | lookup (detail : GoString)
deriving DecidableEq

/-- `Error()`. -/
def DestinationError.message : DestinationError → GoString
  | invalid message => message
  | selfUnavailable detail => go "proxy address guard is unavailable: " ++ detail
  | forbidden => go "destination is not a public web address"
  | lookup detail => go "resolve destination: " ++ detail

/-- What a server is started with. -/
structure GuardConfig where
  selfHost : GoString
  extraSelf : List Addr

/-- What the mutex protects. -/
structure Known where
  selfResolved : Finset Addr
  selfRetryAfter : Int

/-- The zero `time.Time`. -/
def zeroTime : Int := 0

/-- Ten seconds. -/
def retryDelay : Int := 10000000000

/-- Where a call of `selfAddresses` stands, with its set `self` so far. -/
inductive CallPhase where
  | idle
  /-- Before the first critical section. -/
  | decide (self : Finset Addr)
  /-- The lookup runs. -/
  | look (self : Finset Addr)
  /-- Before the second critical section. -/
  | update (self : Finset Addr) (result : Except GoString (List Addr))
  /-- Before the third. -/
  | read (self : Finset Addr) (lookupErr : Option GoString)
  /-- The interfaces are listed. -/
  | locals (self : Finset Addr)
  | done (result : Except DestinationError (Finset Addr))

/-- Addresses as keys of the map. -/
def unmapped (addresses : List Addr) : Finset Addr := (addresses.map Addr.unmap).toFinset

@[simp] theorem mem_unmapped {addresses : List Addr} {a : Addr} :
    a ∈ unmapped addresses ↔ ∃ b ∈ addresses, b.unmap = a := by simp [unmapped]

/-- The check of `knownPublic`. -/
def checkPublic (self : Finset Addr) : CallPhase :=
  if ∃ a ∈ self, publicAddress a = true then .locals self
  else .done (.error (.selfUnavailable (go "no public proxy address")))

/-- The start of a call, up to the first critical section if there is one. -/
def startGuard [Netip] (config : GuardConfig) : CallPhase :=
  let self := unmapped config.extraSelf
  if config.selfHost = [] then .locals self
  else match Netip.parseAddr config.selfHost with
    | some address => checkPublic (insert address.unmap self)
    | none => .decide self

/-- `shouldLookup`. -/
def decideLookup (known : Known) (now : Int) (self : Finset Addr) : CallPhase :=
  if known.selfResolved = ∅ || !(now < known.selfRetryAfter) then .look self else .read self none

/-- What the second critical section makes of the result of a lookup. -/
def recordLookup (known : Known) (result : Except GoString (List Addr)) (cancelled : Bool)
    (now : Int) : Known :=
  match result with
  | .ok addresses => ⟨known.selfResolved ∪ unmapped addresses, zeroTime⟩
  | .error _ =>
      if known.selfResolved ≠ ∅ && !cancelled then
        { known with selfRetryAfter := now + retryDelay }
      else known

/-- `lookupErr`. -/
def lookupError : Except GoString (List Addr) → Option GoString
  | .ok _ => none
  | .error err => some err

/-- The third critical section and what follows it. -/
def readKnown (known : Known) (self : Finset Addr) (lookupErr : Option GoString) : CallPhase :=
  match lookupErr with
  | some err =>
      if known.selfResolved = ∅ then
        .done (.error (.selfUnavailable (go "resolve proxy host: " ++ err)))
      else checkPublic (self ∪ known.selfResolved)
  | none => checkPublic (self ∪ known.selfResolved)

/-- The end of a call. -/
def finishGuard (self : Finset Addr) (result : Except GoString (List Addr)) : CallPhase :=
  match result with
  | .error err => .done (.error (.selfUnavailable (go "inspect local addresses: " ++ err)))
  | .ok addresses => .done (.ok (self ∪ unmapped addresses))

/-! ## Interleavings -/

/-- A server: what is known, and every call by its number. -/
structure Guard where
  known : Known
  phase : Nat → CallPhase

/-- A step of a call. Readings of the clock, answers and the state of the context
are labels, so that a run may have any. -/
inductive GuardLabel where
  | call (id : Nat)
  | decide (id : Nat) (now : Int)
  | lookup (id : Nat) (result : Except GoString (List Addr))
  | update (id : Nat) (cancelled : Bool) (now : Int)
  | read (id : Nat)
  | locals (id : Nat) (result : Except GoString (List Addr))

namespace Guard

/-- Nothing is known and nothing was called. -/
def init : Guard := ⟨⟨∅, zeroTime⟩, fun _ => .idle⟩

def setPhase (g : Guard) (id : Nat) (p : CallPhase) : Guard :=
  { g with phase := Function.update g.phase id p }

@[simp] theorem setPhase_known (g : Guard) (id : Nat) (p : CallPhase) :
    (g.setPhase id p).known = g.known := rfl

@[simp] theorem setPhase_self (g : Guard) (id : Nat) (p : CallPhase) :
    (g.setPhase id p).phase id = p := by simp [setPhase]

@[simp] theorem setPhase_of_ne (g : Guard) {id other : Nat} (h : other ≠ id) (p : CallPhase) :
    (g.setPhase id p).phase other = g.phase other := by simp [setPhase, h]

variable [Netip]

/-- One step. A call is made once and takes its steps in order. -/
def step (config : GuardConfig) (g : Guard) : GuardLabel → Option Guard
  | .call id =>
      match g.phase id with
      | .idle => some (g.setPhase id (startGuard config))
      | _ => none
  | .decide id now =>
      match g.phase id with
      | .decide self => some (g.setPhase id (decideLookup g.known now self))
      | _ => none
  | .lookup id result =>
      match g.phase id with
      | .look self => some (g.setPhase id (.update self result))
      | _ => none
  | .update id cancelled now =>
      match g.phase id with
      | .update self result =>
          some { g.setPhase id (.read self (lookupError result)) with
            known := recordLookup g.known result cancelled now }
      | _ => none
  | .read id =>
      match g.phase id with
      | .read self lookupErr => some (g.setPhase id (readKnown g.known self lookupErr))
      | _ => none
  | .locals id result =>
      match g.phase id with
      | .locals self => some (g.setPhase id (finishGuard self result))
      | _ => none

/-- The call that takes a step. -/
def actor : GuardLabel → Nat
  | .call id | .decide id _ | .lookup id _ | .update id _ _ | .read id | .locals id _ => id

/-- The phases that one step leads from and to. -/
inductive Moves (config : GuardConfig) (known : Known) : GuardLabel → CallPhase → CallPhase → Prop where
  | call (id : Nat) : Moves config known (.call id) .idle (startGuard config)
  | decide (id : Nat) (now : Int) (self : Finset Addr) :
      Moves config known (.decide id now) (.decide self) (decideLookup known now self)
  | lookup (id : Nat) (self : Finset Addr) (result : Except GoString (List Addr)) :
      Moves config known (.lookup id result) (.look self) (.update self result)
  | update (id : Nat) (cancelled : Bool) (now : Int) (self : Finset Addr)
      (result : Except GoString (List Addr)) :
      Moves config known (.update id cancelled now) (.update self result)
        (.read self (lookupError result))
  | read (id : Nat) (self : Finset Addr) (lookupErr : Option GoString) :
      Moves config known (.read id) (.read self lookupErr) (readKnown known self lookupErr)
  | locals (id : Nat) (self : Finset Addr) (result : Except GoString (List Addr)) :
      Moves config known (.locals id result) (.locals self) (finishGuard self result)

/-- What a step does: its call moves, the others stay, and only a recorded lookup
changes what is known. -/
structure Stepped (config : GuardConfig) (g : Guard) (l : GuardLabel) (g' : Guard) : Prop where
  moves : Moves config g.known l (g.phase (actor l)) (g'.phase (actor l))
  others : ∀ id, id ≠ actor l → g'.phase id = g.phase id
  known : g'.known = g.known ∨ ∃ id cancelled now self result,
    l = .update id cancelled now ∧ g.phase id = .update self result ∧
      g'.known = recordLookup g.known result cancelled now

theorem step_cases {config : GuardConfig} {g g' : Guard} {l : GuardLabel}
    (h : step config g l = some g') : Stepped config g l g' := by
  cases l with
  | call id =>
      simp only [step] at h
      split at h
      · rename_i hphase
        obtain rfl := Option.some.inj h
        refine ⟨?_, fun other hne => setPhase_of_ne g hne _, Or.inl rfl⟩
        rw [actor, hphase, setPhase_self]
        exact .call id
      · cases h
  | decide id now =>
      simp only [step] at h
      split at h
      · rename_i self hphase
        obtain rfl := Option.some.inj h
        refine ⟨?_, fun other hne => setPhase_of_ne g hne _, Or.inl rfl⟩
        rw [actor, hphase, setPhase_self]
        exact .decide id now self
      · cases h
  | lookup id result =>
      simp only [step] at h
      split at h
      · rename_i self hphase
        obtain rfl := Option.some.inj h
        refine ⟨?_, fun other hne => setPhase_of_ne g hne _, Or.inl rfl⟩
        rw [actor, hphase, setPhase_self]
        exact .lookup id self result
      · cases h
  | update id cancelled now =>
      simp only [step] at h
      split at h
      · rename_i self result hphase
        obtain rfl := Option.some.inj h
        refine ⟨?_, fun other hne => setPhase_of_ne g hne _,
          Or.inr ⟨id, cancelled, now, self, result, rfl, hphase, rfl⟩⟩
        have hset : (g.setPhase id (.read self (lookupError result))).phase id =
            .read self (lookupError result) := setPhase_self g id _
        rw [actor, hphase]
        show Moves config g.known _ _ ((g.setPhase id (.read self (lookupError result))).phase id)
        rw [hset]
        exact .update id cancelled now self result
      · cases h
  | read id =>
      simp only [step] at h
      split at h
      · rename_i self lookupErr hphase
        obtain rfl := Option.some.inj h
        refine ⟨?_, fun other hne => setPhase_of_ne g hne _, Or.inl rfl⟩
        rw [actor, hphase, setPhase_self]
        exact .read id self lookupErr
      · cases h
  | locals id result =>
      simp only [step] at h
      split at h
      · rename_i self hphase
        obtain rfl := Option.some.inj h
        refine ⟨?_, fun other hne => setPhase_of_ne g hne _, Or.inl rfl⟩
        rw [actor, hphase, setPhase_self]
        exact .locals id self result
      · cases h

end Guard

/-! ## What a set contains -/

/-- `Q` of the set of a call before it reads what is known, `P` afterwards. -/
def CallPhase.All (Q P : Finset Addr → Prop) : CallPhase → Prop
  | .idle => True
  | .decide self => Q self
  | .look self => Q self
  | .update self _ => Q self
  | .read self _ => Q self
  | .locals self => P self
  | .done (.ok self) => P self
  | .done (.error _) => True

/-- `P` is a matter of having enough addresses, and what a call starts and goes on
with has them. -/
structure Keeps [Netip] (config : GuardConfig) (known : Known) (Q P : Finset Addr → Prop) :
    Prop where
  mono : ∀ {self more : Finset Addr}, P self → P (self ∪ more)
  start : (startGuard config).All Q P
  read : ∀ self, Q self → (∃ a ∈ self ∪ known.selfResolved, publicAddress a = true) →
    P (self ∪ known.selfResolved)

/-- A call that passes the check of `knownPublic` knows a public address. -/
theorem checkPublic_cases (self : Finset Addr) :
    (checkPublic self = .locals self ∧ ∃ a ∈ self, publicAddress a = true) ∨
      ∃ e, checkPublic self = .done (.error e) := by
  rw [checkPublic]
  split
  · rename_i h
    exact Or.inl ⟨rfl, h⟩
  · exact Or.inr ⟨_, rfl⟩

/-- Reading either fails or goes on with all that is known. -/
theorem readKnown_cases (known : Known) (self : Finset Addr) (lookupErr : Option GoString) :
    (readKnown known self lookupErr = .locals (self ∪ known.selfResolved) ∧
        ∃ a ∈ self ∪ known.selfResolved, publicAddress a = true) ∨
      ∃ e, readKnown known self lookupErr = .done (.error e) := by
  cases lookupErr with
  | none => exact checkPublic_cases _
  | some err =>
      rw [readKnown]
      split
      · exact Or.inr ⟨_, rfl⟩
      · exact checkPublic_cases _

namespace Guard

variable [Netip] {config : GuardConfig} {g g' : Guard} {ls : List GuardLabel}

theorem Moves.all {known : Known} {Q P : Finset Addr → Prop} {l : GuardLabel} {p p' : CallPhase}
    (h : Moves config known l p p') (hk : Keeps config known Q P) (hp : p.All Q P) :
    p'.All Q P := by
  cases h with
  | call id => exact hk.start
  | decide id now self =>
      rw [decideLookup]
      split <;> exact hp
  | lookup id self result => exact hp
  | update id cancelled now self result => exact hp
  | read id self lookupErr =>
      rcases readKnown_cases known self lookupErr with ⟨h, hpublic⟩ | ⟨e, h⟩
      · rw [h]
        exact hk.read self hp hpublic
      · rw [h]
        trivial
  | locals id self result =>
      cases result with
      | ok addresses => exact hk.mono hp
      | error err => trivial

/-- Nothing that is known is forgotten. -/
theorem step_selfResolved {l : GuardLabel} (h : step config g l = some g') :
    g.known.selfResolved ⊆ g'.known.selfResolved := by
  rcases (step_cases h).known with hknown | ⟨id, cancelled, now, self, result, -, -, hknown⟩
  · rw [hknown]
  · rw [hknown]
    cases result with
    | ok addresses => exact Finset.subset_union_left
    | error err =>
        rw [recordLookup]
        split <;> exact Finset.Subset.refl _

/-- What all calls of a run keep, one call keeps. -/
theorem run_all {Q P : Finset Addr → Prop} {K : Finset Addr}
    (hk : ∀ known, K ⊆ known.selfResolved → Keeps config known Q P)
    (h : Run (step config) g ls g') (hg : K ⊆ g.known.selfResolved) {i : Nat}
    (hid : (g.phase i).All Q P) : (g'.phase i).All Q P := by
  have hboth : K ⊆ g'.known.selfResolved ∧ (g'.phase i).All Q P := by
    refine h.invariant (P := fun g => K ⊆ g.known.selfResolved ∧ (g.phase i).All Q P)
      (fun {s l t} hstep hs => ?_) ⟨hg, hid⟩
    refine ⟨hs.1.trans (step_selfResolved hstep), ?_⟩
    have hstepped := step_cases hstep
    by_cases hactor : i = actor l
    · subst hactor
      exact hstepped.moves.all (hk _ hs.1) hs.2
    · rw [hstepped.others i hactor]
      exact hs.2
  exact hboth.2

/-- The set of a call has the addresses that the server was started with. -/
theorem keeps_extraSelf (known : Known) :
    Keeps config known (unmapped config.extraSelf ⊆ ·) (unmapped config.extraSelf ⊆ ·) where
  mono h := h.trans Finset.subset_union_left
  start := by
    rw [startGuard]
    split
    · exact Finset.Subset.refl _
    split
    · rename_i address _
      rcases checkPublic_cases (insert address.unmap (unmapped config.extraSelf)) with
        ⟨h, -⟩ | ⟨e, h⟩
      · rw [h]
        exact Finset.subset_insert _ _
      · rw [h]
        trivial
    · exact Finset.Subset.refl _
  read _ h _ := h.trans Finset.subset_union_left

/-- A server with a name or an address of its own knows a public address. -/
theorem keeps_public (hhost : config.selfHost ≠ []) (known : Known) :
    Keeps config known (fun _ => True) (fun self => ∃ a ∈ self, publicAddress a = true) where
  mono := fun ⟨a, ha, hpublic⟩ => ⟨a, Finset.mem_union_left _ ha, hpublic⟩
  start := by
    rw [startGuard, if_neg hhost]
    split
    · rename_i address _
      rcases checkPublic_cases (insert address.unmap (unmapped config.extraSelf)) with
        ⟨h, hpublic⟩ | ⟨e, h⟩
      · rw [h]
        exact hpublic
      · rw [h]
        trivial
    · trivial
  read _ _ h := h

/-- A call that begins when the addresses of `K` are known has them. -/
theorem keeps_known (hhost : config.selfHost ≠ []) (hname : Netip.parseAddr config.selfHost = none)
    {K : Finset Addr} {known : Known} (hK : K ⊆ known.selfResolved) :
    Keeps config known (fun _ => True) (K ⊆ ·) where
  mono h := h.trans Finset.subset_union_left
  start := by
    simp only [startGuard, if_neg hhost, hname]
    trivial
  read _ _ _ := hK.trans Finset.subset_union_right

/-- Only a server with a name looks it up. -/
theorem keeps_name (known : Known) :
    Keeps config known
      (fun _ => config.selfHost ≠ [] ∧ Netip.parseAddr config.selfHost = none) (fun _ => True) where
  mono _ := trivial
  start := by
    rw [startGuard]
    split
    · trivial
    rename_i hhost
    split
    · rename_i address _
      rcases checkPublic_cases (insert address.unmap (unmapped config.extraSelf)) with
        ⟨h, -⟩ | ⟨e, h⟩ <;> rw [h] <;> trivial
    · rename_i hname
      exact ⟨hhost, hname⟩
  read _ _ _ := trivial

/-- A server that is started with an address of its own has it in every set. -/
theorem keeps_literal (hhost : config.selfHost ≠ []) {address : Addr}
    (hliteral : Netip.parseAddr config.selfHost = some address) (known : Known) :
    Keeps config known (address.unmap ∈ ·) (address.unmap ∈ ·) where
  mono h := Finset.mem_union_left _ h
  start := by
    simp only [startGuard, if_neg hhost, hliteral]
    rcases checkPublic_cases (insert address.unmap (unmapped config.extraSelf)) with
      ⟨h, -⟩ | ⟨e, h⟩
    · rw [h]
      exact Finset.mem_insert_self _ _
    · rw [h]
      trivial
  read _ h _ := Finset.mem_union_left _ h

end Guard

/-- The call has read what is known, and whatever set it ends with has `K`. -/
def CallPhase.Past (K : Finset Addr) : CallPhase → Prop
  | .locals self => K ⊆ self
  | .done (.ok self) => K ⊆ self
  | .done (.error _) => True
  | _ => False

namespace Guard

variable [Netip] {config : GuardConfig} {g g' g₁ : Guard} {ls before rest : List GuardLabel}
  {K self : Finset Addr} {id : Nat}

theorem Moves.past {known : Known} {l : GuardLabel} {p p' : CallPhase} (h : Moves config known l p p')
    (hp : p.Past K) : p'.Past K := by
  cases h with
  | locals id self result =>
      cases result with
      | ok addresses => exact Finset.Subset.trans hp Finset.subset_union_left
      | error err => trivial
  | _ => exact hp.elim

theorem run_past (h : Run (step config) g ls g') (hp : (g.phase id).Past K) :
    (g'.phase id).Past K := by
  refine h.invariant (P := fun g => (g.phase id).Past K) (fun {s l t} hstep hs => ?_) hp
  have hstepped := step_cases hstep
  by_cases hactor : id = actor l
  · subst hactor
    exact hstepped.moves.past hs
  · rw [hstepped.others id hactor]
    exact hs

/-- A call that is done stays so. -/
theorem run_done (h : Run (step config) g ls g') {result : Except DestinationError (Finset Addr)}
    (hdone : g.phase id = .done result) : g'.phase id = .done result := by
  refine h.invariant (P := fun g => g.phase id = .done result) (fun {s l t} hstep hs => ?_) hdone
  have hstepped := step_cases hstep
  by_cases hactor : id = actor l
  · have hmoves := hstepped.moves
    rw [← hactor, hs] at hmoves
    cases hmoves
  · rw [hstepped.others id hactor]
    exact hs

/-- What is known when a call reads it is in its set. -/
theorem known_of_read (h : Run (step config) init (before ++ .read id :: rest) g)
    (hbefore : Run (step config) init before g₁) (hdone : g.phase id = .done (.ok self)) :
    g₁.known.selfResolved ⊆ self := by
  obtain ⟨g₂, hfirst, hafter⟩ := h.split
  obtain rfl : g₁ = g₂ := Option.some.inj (hbefore.follow_eq.symm.trans hfirst.follow_eq)
  obtain ⟨g₃, hread, hrest⟩ := hafter.head
  have hpast : (g₃.phase id).Past g₁.known.selfResolved := by
    have hmoves := (step_cases hread).moves
    simp only [actor] at hmoves
    generalize g₁.phase id = p at hmoves
    generalize g₃.phase id = p' at hmoves
    cases hmoves with
    | read id self lookupErr =>
        rcases readKnown_cases g₁.known self lookupErr with ⟨h, -⟩ | ⟨e, h⟩ <;> rw [h]
        · exact Finset.subset_union_right
        · trivial
  have hend := run_past hrest hpast
  rwa [hdone] at hend

/-- The local addresses that a call was told are in its set. -/
theorem locals_mem (h : Run (step config) init ls g) {addresses : List Addr}
    (hmem : .locals id (.ok addresses) ∈ ls) (hdone : g.phase id = .done (.ok self)) :
    unmapped addresses ⊆ self := by
  obtain ⟨before, rest, rfl⟩ := List.append_of_mem hmem
  obtain ⟨g₁, -, hafter⟩ := h.split
  obtain ⟨g₂, hlocals, hrest⟩ := hafter.head
  have hpast : (g₂.phase id).Past (unmapped addresses) := by
    have hmoves := (step_cases hlocals).moves
    simp only [actor] at hmoves
    generalize g₁.phase id = p at hmoves
    generalize g₂.phase id = p' at hmoves
    cases hmoves with
    | locals id self result => exact Finset.subset_union_right
  have hend := run_past hrest hpast
  rwa [hdone] at hend

end Guard

/-! ## After a lookup -/

/-- A call whose lookup returned `r` has yet to record it, or to read, or is past
that in one of the phases `L`. -/
def CallPhase.Answered (r : Except GoString (List Addr)) (L : CallPhase → Prop) (p : CallPhase) : Prop :=
  (∃ self, p = .update self r) ∨ (∃ self, p = .read self (lookupError r)) ∨ L p

/-- Past the last critical section. -/
def CallPhase.Late : CallPhase → Prop
  | .locals _ => True
  | .done _ => True
  | _ => False

/-- Without a set. -/
def CallPhase.Failed : CallPhase → Prop
  | .done (.error _) => True
  | _ => False

namespace Guard

variable [Netip] {config : GuardConfig} {g g' : Guard} {ls : List GuardLabel}

theorem Moves.answered {known : Known} {r : Except GoString (List Addr)} {L : CallPhase → Prop}
    {l : GuardLabel} {p p' : CallPhase} (h : Moves config known l p p')
    (hread : ∀ self, L (readKnown known self (lookupError r)))
    (hlate : ∀ {p p'}, Moves config known l p p' → L p → L p') (hp : p.Answered r L) :
    p'.Answered r L := by
  rcases hp with ⟨self, rfl⟩ | ⟨self, rfl⟩ | hp
  · cases h with
    | update id cancelled now => exact Or.inr (Or.inl ⟨self, rfl⟩)
  · cases h with
    | read id => exact Or.inr (Or.inr (hread self))
  · exact Or.inr (Or.inr (hlate h hp))

theorem Moves.of_lookup {known : Known} {id : Nat} {r : Except GoString (List Addr)} {p p' : CallPhase}
    (h : Moves config known (.lookup id r) p p') : ∃ self, p' = .update self r := by
  cases h with
  | lookup _ self => exact ⟨self, rfl⟩

/-- Only a lookup leads to the phase that records its result. -/
theorem Moves.to_update {known : Known} {l : GuardLabel} {r : Except GoString (List Addr)}
    {p p' : CallPhase} {self : Finset Addr} (h : Moves config known l p p') (hp : p' = .update self r) :
    l = .lookup (actor l) r := by
  cases h with
  | call id =>
      rw [startGuard] at hp
      split at hp
      · cases hp
      split at hp
      · rename_i address _
        rcases checkPublic_cases (insert address.unmap (unmapped config.extraSelf)) with
          ⟨h, -⟩ | ⟨e, h⟩ <;> rw [h] at hp <;> cases hp
      · cases hp
  | decide id now self =>
      rw [decideLookup] at hp
      split at hp <;> cases hp
  | lookup id self result =>
      cases hp
      rfl
  | update id cancelled now self result => cases hp
  | read id self lookupErr =>
      rcases readKnown_cases known self lookupErr with ⟨h, -⟩ | ⟨e, h⟩ <;> rw [h] at hp <;> cases hp
  | locals id self result => cases result <;> cases hp

/-- A call is done with a set when it has listed the interfaces. -/
theorem Moves.to_done {known : Known} {l : GuardLabel} {p p' : CallPhase} {self : Finset Addr}
    (h : Moves config known l p p') (hp : p' = .done (.ok self)) :
    ∃ addresses, l = .locals (actor l) (.ok addresses) ∧ unmapped addresses ⊆ self := by
  cases h with
  | call id =>
      rw [startGuard] at hp
      split at hp
      · cases hp
      split at hp
      · rename_i address _
        rcases checkPublic_cases (insert address.unmap (unmapped config.extraSelf)) with
          ⟨h, -⟩ | ⟨e, h⟩ <;> rw [h] at hp <;> cases hp
      · cases hp
  | decide id now self =>
      rw [decideLookup] at hp
      split at hp <;> cases hp
  | lookup id self result => cases hp
  | update id cancelled now self result => cases hp
  | read id self lookupErr =>
      rcases readKnown_cases known self lookupErr with ⟨h, -⟩ | ⟨e, h⟩ <;> rw [h] at hp <;> cases hp
  | locals id self result =>
      cases result with
      | ok addresses =>
          cases hp
          exact ⟨addresses, rfl, Finset.subset_union_right⟩
      | error err => cases hp

/-- A lookup answers its call. -/
theorem step_lookup {id : Nat} {r : Except GoString (List Addr)}
    (h : step config g (.lookup id r) = some g') : ∃ self, g'.phase id = .update self r := by
  exact (step_cases h).moves.of_lookup

/-- Recording takes the result that the call has. -/
theorem step_update {id : Nat} {cancelled : Bool} {now : Int}
    (h : step config g (.update id cancelled now) = some g') :
    ∃ self result, g.phase id = .update self result ∧
      g'.known = recordLookup g.known result cancelled now := by
  simp only [step] at h
  split at h
  · rename_i self result hphase
    obtain rfl := Option.some.inj h
    exact ⟨self, result, hphase, rfl⟩
  · cases h

/-- A call is made when its number is free. -/
theorem step_call {id : Nat} (h : step config g (.call id) = some g') : g.phase id = .idle := by
  simp only [step] at h
  split at h
  · rename_i hphase
    exact hphase
  · cases h

/-- Nothing that is known is forgotten over a run. -/
theorem run_selfResolved (h : Run (step config) g ls g') :
    g.known.selfResolved ⊆ g'.known.selfResolved :=
  h.invariant (P := fun t => g.known.selfResolved ⊆ t.known.selfResolved)
    (fun hstep hs => hs.trans (step_selfResolved hstep)) (Finset.Subset.refl _)

/-- The steps of a run after a lookup was answered. -/
theorem run_late (h : Run (step config) init ls g) {id : Nat} {r : Except GoString (List Addr)}
    (hmem : .lookup id r ∈ ls) : (g.phase id).Answered r CallPhase.Late := by
  refine h.trace_invariant (P := fun ls g => .lookup id r ∈ ls → (g.phase id).Answered r CallPhase.Late)
    nofun (fun {ls t l u} _ hstep ih hmem => ?_) hmem
  rw [List.mem_append, List.mem_singleton] at hmem
  have hstepped := step_cases hstep
  rcases hmem with hmem | rfl
  · by_cases hactor : id = actor l
    · subst hactor
      refine hstepped.moves.answered (fun self => ?_) (fun {p p'} hm hp => ?_) (ih hmem)
      · rcases readKnown_cases t.known self (lookupError r) with ⟨h, -⟩ | ⟨e, h⟩ <;> rw [h] <;>
          trivial
      · cases hm with
        | locals id self result => cases result <;> trivial
        | _ => exact hp.elim
    · rw [hstepped.others id hactor]
      exact ih hmem
  · exact Or.inl (step_lookup hstep)

/-- Nothing that a lookup of these labels found. -/
def FoundNothing (ls : List GuardLabel) : Prop :=
  ∀ id addresses, .lookup id (.ok addresses) ∈ ls → addresses = []

/-- While no lookup finds anything, nothing is known, and a call whose lookup fails
goes without a set. -/
structure Blind (ls : List GuardLabel) (g : Guard) : Prop where
  unknown : g.known.selfResolved = ∅
  found : ∀ id self addresses, g.phase id = .update self (.ok addresses) → addresses = []
  failed : ∀ id err, .lookup id (.error err) ∈ ls → (g.phase id).Answered (.error err) CallPhase.Failed

theorem run_blind (h : Run (step config) init ls g) (hfound : FoundNothing ls) : Blind ls g := by
  refine h.trace_invariant (P := fun ls g => FoundNothing ls → Blind ls g)
    (fun _ => ⟨rfl, fun _ _ _ h => (by cases h), nofun⟩) (fun {ls t l u} _ hstep ih hfound => ?_) hfound
  have hblind := ih fun id addresses hmem => hfound id addresses (List.mem_append_left _ hmem)
  have hstepped := step_cases hstep
  have hunknown : u.known.selfResolved = ∅ := by
    rcases hstepped.known with hknown | ⟨id, cancelled, now, self, result, -, hphase, hknown⟩
    · rw [hknown, hblind.unknown]
    · rw [hknown]
      cases result with
      | ok addresses =>
          obtain rfl := hblind.found id self addresses hphase
          simp [recordLookup, hblind.unknown, unmapped]
      | error err => simp [recordLookup, hblind.unknown]
  refine ⟨hunknown, fun id self addresses hphase => ?_, fun id err hmem => ?_⟩
  · by_cases hactor : id = actor l
    · subst hactor
      have hlookup := hstepped.moves.to_update hphase
      exact hfound (actor l) addresses (List.mem_append_right _ (by rw [← hlookup]; simp))
    · rw [hstepped.others id hactor] at hphase
      exact hblind.found id self addresses hphase
  · rw [List.mem_append, List.mem_singleton] at hmem
    rcases hmem with hmem | rfl
    · by_cases hactor : id = actor l
      · subst hactor
        refine hstepped.moves.answered (fun self => ?_) (fun {p p'} hm hp => ?_)
          (hblind.failed _ err hmem)
        · simp only [readKnown, lookupError, if_pos hblind.unknown]
          trivial
        · cases hm <;> exact hp.elim
      · rw [hstepped.others id hactor]
        exact hblind.failed id err hmem
    · exact Or.inl (step_lookup hstep)

/-- A recorded lookup is known to all calls that start later. -/
theorem remembers_of_run {before between rest : List GuardLabel} {id other : Nat}
    {cancelled : Bool} {now : Int} {addresses : List Addr} {self : Finset Addr}
    (h : Run (step config) init
      (before ++ .update id cancelled now :: (between ++ .call other :: rest)) g)
    (hlookup : .lookup id (.ok addresses) ∈ before) (hdone : g.phase other = .done (.ok self)) :
    unmapped addresses ⊆ self := by
  obtain ⟨g₁, hbefore, hafter⟩ := h.split
  obtain ⟨g₂, hupdate, hafter⟩ := hafter.head
  obtain ⟨g₃, hbetween, hafter⟩ := hafter.split
  -- The result that is recorded is the one that the lookup returned.
  obtain ⟨self', result, hphase, hknown⟩ := step_update hupdate
  have hresult : result = .ok addresses := by
    rcases run_late hbefore hlookup with ⟨_, h⟩ | ⟨_, h⟩ | h
    · rw [hphase] at h
      exact (CallPhase.update.inj h).2
    · rw [hphase] at h
      cases h
    · rw [hphase] at h
      exact h.elim
  subst hresult
  have hname : config.selfHost ≠ [] ∧ Netip.parseAddr config.selfHost = none := by
    have hall := run_all (K := ∅) (i := id) (fun known _ => keeps_name known) hbefore
      (Finset.empty_subset _) trivial
    rw [hphase] at hall
    exact hall
  have hrecorded : unmapped addresses ⊆ g₃.known.selfResolved := by
    refine Finset.Subset.trans ?_ (run_selfResolved hbetween)
    rw [hknown]
    exact Finset.subset_union_right
  obtain ⟨g₄, hcall, -⟩ := hafter.head
  have hall := run_all (i := other) (fun known hK => keeps_known hname.1 hname.2 hK) hafter
    hrecorded (by rw [step_call hcall]; trivial)
  rw [hdone] at hall
  exact hall

/-- A call that is done listed the interfaces. -/
theorem locals_of_done (h : Run (step config) init ls g) {id : Nat} {self : Finset Addr}
    (hdone : g.phase id = .done (.ok self)) :
    ∃ addresses, .locals id (.ok addresses) ∈ ls ∧ unmapped addresses ⊆ self := by
  refine h.trace_invariant (P := fun ls g => g.phase id = .done (.ok self) →
    ∃ addresses, .locals id (.ok addresses) ∈ ls ∧ unmapped addresses ⊆ self)
    (fun h => by cases h) (fun {ls t l u} _ hstep ih hdone => ?_) hdone
  have hstepped := step_cases hstep
  by_cases hactor : id = actor l
  · subst hactor
    obtain ⟨addresses, hl, hsub⟩ := hstepped.moves.to_done hdone
    exact ⟨addresses, List.mem_append_right _ (by rw [← hl]; simp), hsub⟩
  · rw [hstepped.others id hactor] at hdone
    obtain ⟨addresses, hmem, hsub⟩ := ih hdone
    exact ⟨addresses, List.mem_append_left _ hmem, hsub⟩

end Guard

/-! ## Calls come to an end -/

/-- So many steps a call has before it, at most. -/
def CallPhase.left : CallPhase → Nat
  | .idle => 6
  | .decide _ => 5
  | .look _ => 4
  | .update _ _ => 3
  | .read _ _ => 2
  | .locals _ => 1
  | .done _ => 0

/-- What a call is answered on its way. -/
structure CallAnswers where
  now : Int
  lookup : Except GoString (List Addr)
  cancelled : Bool
  locals : Except GoString (List Addr)

/-- The next step of a call with these answers. -/
def CallAnswers.next (a : CallAnswers) (id : Nat) : CallPhase → Option GuardLabel
  | .idle => some (.call id)
  | .decide _ => some (.decide id a.now)
  | .look _ => some (.lookup id a.lookup)
  | .update _ _ => some (.update id a.cancelled a.now)
  | .read _ _ => some (.read id)
  | .locals _ => some (.locals id a.locals)
  | .done _ => none

theorem CallAnswers.next_actor {a : CallAnswers} {id : Nat} {p : CallPhase} {l : GuardLabel}
    (h : a.next id p = some l) : Guard.actor l = id := by
  cases p with
  | done result => cases h
  | _ =>
      rw [← Option.some.inj h]
      rfl

theorem left_checkPublic (self : Finset Addr) : (checkPublic self).left ≤ 1 := by
  rcases checkPublic_cases self with ⟨h, -⟩ | ⟨e, h⟩
  · rw [h]
    exact Nat.le_refl 1
  · rw [h]
    exact Nat.zero_le 1

namespace Guard

variable [Netip] {config : GuardConfig} {g g' : Guard} {ls : List GuardLabel}

/-- Each step brings its call closer to the end. -/
theorem Moves.left_lt {known : Known} {l : GuardLabel} {p p' : CallPhase}
    (h : Moves config known l p p') : p'.left < p.left := by
  cases h with
  | call id =>
      rw [startGuard]
      split
      · exact (by decide : 1 < 6)
      split
      · exact Nat.lt_of_le_of_lt (left_checkPublic _) (by decide)
      · exact (by decide : 5 < 6)
  | decide id now self =>
      rw [decideLookup]
      split
      · exact (by decide : 4 < 5)
      · exact (by decide : 2 < 5)
  | lookup id self result => exact (by decide : 3 < 4)
  | update id cancelled now self result => exact (by decide : 2 < 3)
  | read id self lookupErr =>
      rcases readKnown_cases known self lookupErr with ⟨h, -⟩ | ⟨e, h⟩
      · rw [h]
        exact (by decide : 1 < 2)
      · rw [h]
        exact (by decide : 0 < 2)
  | locals id self result =>
      cases result with
      | ok addresses => exact (by decide : 0 < 1)
      | error err => exact (by decide : 0 < 1)

variable (config) in
/-- A call that is not done can take its next step, whatever the others do. -/
theorem exists_step (g : Guard) (id : Nat) (a : CallAnswers) :
    (∃ result, g.phase id = .done result) ∨
      ∃ l g', a.next id (g.phase id) = some l ∧ step config g l = some g' := by
  cases hphase : g.phase id with
  | done result => exact Or.inl ⟨result, rfl⟩
  | _ =>
      right
      simp [CallAnswers.next, step, hphase]

variable (config) in
/-- With its answers a call comes to its end. -/
theorem call_ends (id : Nat) (a : CallAnswers) {n : Nat} : ∀ {g : Guard}, (g.phase id).left ≤ n →
    ∃ rest g' result, Run (step config) g rest g' ∧ rest.length ≤ n ∧
      (∀ l ∈ rest, ∃ p, a.next id p = some l) ∧ g'.phase id = .done result := by
  induction n with
  | zero =>
      intro g hleft
      cases hphase : g.phase id with
      | done result => exact ⟨[], g, result, .nil, Nat.le_refl 0, nofun, hphase⟩
      | _ => simp [hphase, CallPhase.left] at hleft
  | succ n ih =>
      intro g hleft
      rcases exists_step config g id a with ⟨result, hdone⟩ | ⟨l, g₁, hnext, hstep⟩
      · exact ⟨[], g, result, .nil, Nat.zero_le _, nofun, hdone⟩
      · have hlt := (step_cases hstep).moves.left_lt
        rw [CallAnswers.next_actor hnext] at hlt
        rcases ih (g := g₁) (by omega) with ⟨rest, g', result, hrun, hlength, hall, hdone⟩
        refine ⟨l :: rest, g', result, hrun.cons hstep, by simpa using hlength, ?_, hdone⟩
        intro l' hl'
        rcases List.mem_cons.1 hl' with rfl | hmem
        · exact ⟨_, hnext⟩
        · exact hall l' hmem

/-- While nothing was found, a call whose lookup has failed ends without a set. -/
theorem failed_of_run (h : Run (step config) init ls g) (hfound : FoundNothing ls) {id : Nat}
    {err : GoString} {result : Except DestinationError (Finset Addr)}
    (hmem : .lookup id (.error err) ∈ ls) (hdone : g.phase id = .done result) :
    ∃ e, result = .error e := by
  rcases (run_blind h hfound).failed id err hmem with ⟨_, h⟩ | ⟨_, h⟩ | h
  · rw [hdone] at h
    cases h
  · rw [hdone] at h
    cases h
  · rw [hdone] at h
    cases result with
    | ok self => exact h.elim
    | error e => exact ⟨e, rfl⟩

/-- And it does end, by steps of its own. -/
theorem call_fails (h : Run (step config) init ls g) (hfound : FoundNothing ls) {id : Nat}
    {err : GoString} (hmem : .lookup id (.error err) ∈ ls) :
    ∃ rest g' e, Run (step config) g rest g' ∧ (∀ l ∈ rest, actor l = id) ∧
      g'.phase id = .done (.error e) := by
  rcases call_ends config id ⟨0, .error err, false, .ok []⟩ (Nat.le_refl (g.phase id).left) with
    ⟨rest, g', result, hrun, -, hall, hdone⟩
  have hstill : FoundNothing (ls ++ rest) := by
    intro other addresses hother
    rcases List.mem_append.1 hother with hbefore | hafter
    · exact hfound other addresses hbefore
    · -- what the call itself still looks up fails again
      rcases hall _ hafter with ⟨p, hp⟩
      cases p <;> cases hp
  rcases failed_of_run (h.trans hrun) hstill (List.mem_append_left _ hmem) hdone with ⟨e, rfl⟩
  refine ⟨rest, g', e, hrun, ?_, hdone⟩
  intro l hl
  rcases hall l hl with ⟨p, hp⟩
  exact CallAnswers.next_actor hp

end Guard

end BrowserVpn
