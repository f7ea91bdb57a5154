import BrowserVpn.Deploy.Staging

/-!
# Deploy.Stages — where a cycle stands with the link

Seen from `current`, a cycle has not switched it yet, has switched it to the new
version, or has switched it back. In the second stage it matters whether a call has
raised since: then nothing will switch it back. `On` is that bookkeeping, with the
consistency of the directory; the rest of the module says what programs keep it.
-/

namespace BrowserVpn.Manager

open Async Data

abbrev History := List (Move api Tls)

/-- How often `current` has changed. -/
def switches (ms : History) : Nat := ms.countP fun m => m.before.now ≠ m.after.now

/-- A call raised when `current` had changed once and not yet back. -/
def Disturbed (ms : History) : Prop :=
  ∃ earlier m later, ms = earlier ++ m :: later ∧ m.Raised ∧ switches (earlier ++ [m]) = 1

theorem not_disturbed_nil : ¬Disturbed [] := by
  rintro ⟨earlier, m, later, h, -⟩
  simp at h

theorem switches_concat (ms : History) (m : Move api Tls) :
    switches (ms ++ [m]) = switches ms + if m.before.now ≠ m.after.now then 1 else 0 := by
  simp [switches, List.countP_append, List.countP_singleton]

theorem disturbed_concat {ms : History} {m : Move api Tls} :
    Disturbed (ms ++ [m]) ↔ Disturbed ms ∨ m.Raised ∧ switches (ms ++ [m]) = 1 := by
  constructor
  · rintro ⟨earlier, m', later, heq, hraised, hone⟩
    rcases later.eq_nil_or_concat' with rfl | ⟨later, last, rfl⟩
    · obtain ⟨rfl, hm⟩ := List.append_inj' heq rfl
      obtain rfl := List.singleton_inj.1 hm
      exact .inr ⟨hraised, hone⟩
    · rw [← List.cons_append, ← List.append_assoc] at heq
      exact .inl ⟨earlier, m', later, (List.append_inj' heq rfl).1, hraised, hone⟩
  · rintro (⟨earlier, m', later, rfl, h⟩ | h)
    · exact ⟨earlier, m', later ++ [m], by simp, h⟩
    · exact ⟨ms, m, [], rfl, h⟩

/-! ## Stages -/

inductive Stage where
  | before
  | calm
  | upset
  | restored
deriving DecidableEq

namespace Stage

def switches : Stage → Nat
  | .before => 0
  | .calm | .upset => 1
  | .restored => 2

def published : Stage → Bool
  | .calm | .upset => true
  | _ => false

/-- After a call that raised. -/
def struck : Stage → Stage
  | .calm => .upset
  | st => st

/-- After `current` has been replaced. -/
def switched : Stage → Stage
  | .before => .calm
  | .calm => .restored
  | st => st

/-- After a program that was left with `r`: what it raised itself is no call's. -/
def result {α : Type} (st : Stage) : api.Settled α → Stage
  | .ok _ => st
  | .error e => if e.isOwn then st else st.struck

end Stage

/-- The state and the moves of a cycle that found `start` at `current`. -/
structure On (start : Option (Node Name Bytes)) (st : Stage) (x : Tls × History) : Prop where
  consistent : x.1.Consistent
  previous : ∀ v, start = some (.link v) → IsVersion v ∧ x.1.tree.node [v] ≠ none
  switches : switches x.2 = st.switches
  now : st.published = false → x.1.now = start
  moved : st.published = true → x.1.now ≠ start
  disturbed : Disturbed x.2 ↔ st = .upset

theorem Tls.Consistent.on {s : Tls} (h : s.Consistent) : On s.now .before (s, []) where
  consistent := h
  previous v hv := by
    obtain hnone | ⟨w, hw, hlink, hnode⟩ := h.current
    · rw [hnone] at hv
      cases hv
    · rw [hlink] at hv
      obtain rfl : w = v := by simpa using hv
      exact ⟨hw, hnode⟩
  switches := rfl
  now _ := rfl
  moved h := by cases h
  disturbed := ⟨fun h => absurd h not_disturbed_nil, fun h => by cases h⟩

/-- What the cycle is entitled to call: it leaves every version directory alone, and
`current` too unless it replaces it. -/
def Entitled (c : Call) (s : Tls) : Prop :=
  s.Consistent ∧ ∀ r s', effect s c r s' →
    s.Kept s' ∧ (s'.now ≠ s.now → ∃ p, c = .replace p [current])

abbrev logic : Logic api (Tls × History) :=
  .alone effect.recorded fun c x => Entitled c x.1

section

variable {α β : Type} {start : Option (Node Name Bytes)} {st : Stage} {s s' : Tls} {ms : History}
  {x : Tls × History} {c : Call} {n : Name}

theorem Call.Hidden.entitled (hc : c.Hidden s) (hs : s.Consistent) : Entitled c s :=
  ⟨hs, fun _ _ he => ⟨hc.kept he, fun hne => absurd (hc.now he) hne⟩⟩

theorem wp_request {Q : api.Settled c.Reply → Tls × History → Prop} (hc : Entitled c s)
    (h : ∀ r s', effect s c r s' → Q r (s', ms ++ [⟨s, c, r, s'⟩])) :
    wp logic (request c) Q (s, ms) := by
  refine ⟨hc, fun r x' hr => ?_⟩
  obtain ⟨s', he, rfl⟩ := Logic.replies_recorded.1 hr
  exact h r s' he

/-- A call that leaves `current` alone leaves the stage, unless it raises. -/
theorem On.still (h : On start st (s, ms)) {r : api.Settled c.Reply} (hs : s'.Consistent)
    (hkept : s.Kept s') (hnow : s'.now = s.now) :
    On start (if r.isOk then st else st.struck) (s', ms ++ [⟨s, c, r, s'⟩]) := by
  have hswitches : Manager.switches (ms ++ [⟨s, c, r, s'⟩]) = st.switches := by
    simp [switches_concat, hnow, h.switches]
  have hsame : (if r.isOk then st else st.struck).switches = st.switches ∧
      (if r.isOk then st else st.struck).published = st.published := by
    cases r <;> cases st <;> exact ⟨rfl, rfl⟩
  refine ⟨hs, fun v hv => ?_, hswitches.trans hsame.1.symm, ?_, ?_, ?_⟩
  · obtain ⟨hversion, hnode⟩ := h.previous v hv
    refine ⟨hversion, ?_⟩
    rwa [hkept v hversion hnode [v] List.prefix_rfl]
  · rw [hsame.2]
    exact fun hp => hnow.trans (h.now hp)
  · rw [hsame.2]
    exact fun hp => fun hstart => h.moved hp (hnow.symm.trans hstart)
  · rw [disturbed_concat, h.disturbed, hswitches]
    cases r with
    | ok a =>
        have hok : ¬Move.Raised (A := api) ⟨s, c, Except.ok a, s'⟩ := by
          rintro ⟨e, he⟩
          cases he
        simp [hok, Except.isOk, Except.toBool]
    | error e =>
        have herr : Move.Raised (A := api) ⟨s, c, Except.error e, s'⟩ := ⟨e, rfl⟩
        cases st <;> simp [herr, Except.isOk, Except.toBool, Stage.struck, Stage.switches]

theorem On.hidden (h : On start st (s, ms)) (hc : c.Hidden s) {r : api.Settled c.Reply}
    (he : effect s c r s') :
    On start (if r.isOk then st else st.struck) (s', ms ++ [⟨s, c, r, s'⟩]) :=
  h.still (hc.consistent he h.consistent) (hc.kept he) (hc.now he)

/-- The name that `current` is switched to: another one at first, then the one
before. -/
def Stage.target (st : Stage) (start : Option (Node Name Bytes)) (name : Name) : Prop :=
  st = .before ∧ start ≠ some (.link name) ∨ st = .calm ∧ start = some (.link name)

theorem On.switch (h : On start st (s, ms)) {r : api.Settled c.Reply} (hs : s'.Consistent)
    (hkept : s.Kept s') {name : Name} (hnow : s'.now = some (.link name))
    (htarget : st.target start name) :
    On start (if r.isOk then st.switched else st.switched.struck) (s', ms ++ [⟨s, c, r, s'⟩]) := by
  have hprevious (v : Name) (hv : start = some (.link v)) :
      IsVersion v ∧ s'.tree.node [v] ≠ none := by
    obtain ⟨hversion, hnode⟩ := h.previous v hv
    refine ⟨hversion, ?_⟩
    rwa [hkept v hversion hnode [v] List.prefix_rfl]
  obtain ⟨rfl, hne⟩ | ⟨rfl, heq⟩ := htarget
  · have hchanged : s.now ≠ s'.now := by
      rw [h.now rfl, hnow]
      exact hne
    have hswitches : Manager.switches (ms ++ [⟨s, c, r, s'⟩]) = 1 := by
      simp [switches_concat, hchanged, h.switches, Stage.switches]
    have hmoved : s'.now ≠ start := by
      rw [hnow]
      exact hne.symm
    have hquiet : ¬Disturbed ms := fun hd => by cases h.disturbed.1 hd
    cases r with
    | ok a =>
        refine ⟨hs, hprevious, hswitches, nofun, fun _ => hmoved, ?_⟩
        rw [disturbed_concat]
        constructor
        · rintro (hd | ⟨⟨e, he⟩, -⟩)
          · exact absurd hd hquiet
          · cases he
        · nofun
    | error e =>
        refine ⟨hs, hprevious, hswitches, nofun, fun _ => hmoved, fun _ => rfl, fun _ => ?_⟩
        exact disturbed_concat.2 (.inr ⟨⟨e, rfl⟩, hswitches⟩)
  · have hchanged : s.now ≠ s'.now := by
      rw [hnow, ← heq]
      exact h.moved rfl
    have hswitches : Manager.switches (ms ++ [⟨s, c, r, s'⟩]) = 2 := by
      simp [switches_concat, hchanged, h.switches, Stage.switches]
    have hquiet : ¬Disturbed ms := fun hd => by cases h.disturbed.1 hd
    have hstill : ¬Disturbed (ms ++ [⟨s, c, r, s'⟩]) := by
      rw [disturbed_concat, hswitches]
      rintro (hd | ⟨-, hone⟩)
      · exact hquiet hd
      · cases hone
    have hstage : (if r.isOk then Stage.calm.switched else Stage.calm.switched.struck) =
        .restored := by cases r <;> rfl
    rw [hstage]
    exact ⟨hs, hprevious, hswitches, fun _ => hnow.trans heq.symm, nofun,
      fun hd => absurd hd hstill, nofun⟩

/-! ## Programs that only look -/

/-- A program whose calls are quiet does not leave the first stage. -/
theorem wp_before {p : Py α} (hp : p.Within (fun c : Call => c.quiet = true) fun _ => True)
    (hx : On start .before x) :
    wp logic p (fun _ x' => On start .before x' ∧ x'.1.tree.node = x.1.tree.node) x := by
  refine wp_of_within logic
    (I := fun x' => On start .before x' ∧ x'.1.tree.node = x.1.tree.node) hp
    (fun x _ x' hx he => he ▸ hx) (fun w => w.elim) ?_ ⟨hx, rfl⟩
  rintro c ⟨s, ms⟩ ⟨hx, htree⟩ hc
  have hhidden : c.Hidden s := Call.hidden_of_quiet hc
  refine ⟨hhidden.entitled hx.consistent, fun r x' hr => ?_⟩
  obtain ⟨s', he, rfl⟩ := Logic.replies_recorded.1 hr
  exact ⟨by simpa [Stage.struck] using hx.hidden hhidden he, (effect_quiet he hc).trans htree⟩

/-- Such a program first, and then `f`. -/
theorem wp_before_bind {p : Py α} {f : α → Py β} {Q : api.Settled β → Tls × History → Prop}
    (hp : p.Within (fun c : Call => c.quiet = true) fun _ => True) (hx : On start .before x)
    (hok : ∀ a x', On start .before x' → x'.1.tree.node = x.1.tree.node → wp logic (f a) Q x')
    (herr : ∀ e x', On start .before x' → Q (.error e) x') : wp logic (p >>= f) Q x :=
  wp_bind logic (wp_before hp hx) (fun a x' h => hok a x' h.1 h.2) fun e x' h => herr e x' h.1

/-- Nor does one that writes inside a plain hidden directory. -/
theorem wp_inside {p : Py α} (hp : p.Within (fun c : Call => c.Inside n) fun _ => True)
    (hn : IsHidden n) (hx : On start .before x) (hplain : x.1.IsPlain n) :
    wp logic p (fun _ x' => On start .before x' ∧ x'.1.IsPlain n) x := by
  refine wp_of_within logic (I := fun x' => On start .before x' ∧ x'.1.IsPlain n) hp
    (fun x _ x' hx he => he ▸ hx) (fun w => w.elim) ?_ ⟨hx, hplain⟩
  rintro c ⟨s, ms⟩ ⟨hx, hplain⟩ hc
  have hhidden : c.Hidden s := hc.hidden hplain hn
  refine ⟨hhidden.entitled hx.consistent, fun r x' hr => ?_⟩
  obtain ⟨s', he, rfl⟩ := Logic.replies_recorded.1 hr
  exact ⟨by simpa [Stage.struck] using hx.hidden hhidden he, hc.isPlain hplain he⟩

theorem wp_inside_bind {p : Py α} {f : α → Py β} {Q : api.Settled β → Tls × History → Prop}
    (hp : p.Within (fun c : Call => c.Inside n) fun _ => True) (hn : IsHidden n)
    (hx : On start .before x) (hplain : x.1.IsPlain n)
    (hok : ∀ a x', On start .before x' → x'.1.IsPlain n → wp logic (f a) Q x')
    (herr : ∀ e x', On start .before x' → Q (.error e) x') : wp logic (p >>= f) Q x :=
  wp_bind logic (wp_inside hp hn hx hplain) (fun a x' h => hok a x' h.1 h.2)
    fun e x' h => herr e x' h.1

/-! ## Programs that go on in any stage -/

/-- The stage is the same, unless a call raised. -/
def Staying (start : Option (Node Name Bytes)) (st : Stage) (r : api.Settled α)
    (x : Tls × History) : Prop :=
  match r with
  | .ok _ => On start st x
  | .error e => e.isOwn = false ∧ On start st.struck x

/-- Whatever `p` raises, a call raised. -/
def Strict (start : Option (Node Name Bytes)) (st : Stage) (p : Py α) : Prop :=
  ∀ x, On start st x → wp logic p (Staying start st) x

/-- Whatever `p` raises is its own or a call's. -/
def Keeps (start : Option (Node Name Bytes)) (st : Stage) (p : Py α) : Prop :=
  ∀ x, On start st x → wp logic p (fun r x' => On start (st.result r) x') x

theorem Strict.keeps {p : Py α} (h : Strict start st p) : Keeps start st p := by
  intro x hx
  refine wp_mono logic (h x hx) fun r x' hr => ?_
  cases r with
  | ok a => exact hr
  | error e => simpa [Stage.result, hr.1] using hr.2

/-- The parts of the set-up raise exceptions of the manager's own. -/
def Call.isSetUp : Call → Bool
  | .setUp _ => true
  | _ => false

theorem Call.isOwn_of_mayRaise (hc : c.isSetUp = false) {e : Raised} (h : c.mayRaise e = true) :
    e.isOwn = false := by
  cases c with
  | setUp part => cases hc
  | lexists | monotonic | stopIsSet | stopWait | unfinished => cases h
  | _ => simpa [mayRaise] using h

theorem wp_hidden (hx : On start st (s, ms)) (hc : c.Hidden s) (hset : c.isSetUp = false) :
    wp logic (request c) (fun r x' => Staying start st r x' ∧ effect s c r x'.1) (s, ms) := by
  refine wp_request (hc.entitled hx.consistent) fun r s' he => ⟨?_, he⟩
  have hon := hx.hidden hc he
  cases r with
  | ok a => exact hon
  | error e => exact ⟨Call.isOwn_of_mayRaise hset he.1, hon⟩

theorem strict_request (hc : ∀ s, c.Hidden s) (hset : c.isSetUp = false) :
    Strict start st (request c) := by
  rintro ⟨s, ms⟩ hx
  exact wp_mono logic (wp_hidden hx (hc s) hset) fun r x' hr => hr.1

theorem strict_quiet (hc : c.quiet = true) (hset : c.isSetUp = false) :
    Strict start st (request c) :=
  strict_request (fun _ => Call.hidden_of_quiet hc) hset

theorem strict_pure (a : α) : Strict start st (pure a : Py α) := fun _ hx => hx

theorem Strict.bind {p : Py α} {f : α → Py β} (hp : Strict start st p)
    (hf : ∀ a, Strict start st (f a)) : Strict start st (p >>= f) :=
  fun x hx => wp_bind logic (hp x hx) (fun a x' hx' => hf a x' hx') fun _ _ he => he

theorem Strict.finallyDo {p : Py α} {cleanup : Py Unit} (hp : Strict start st p)
    (hcleanup : ∀ st, Strict start st cleanup) : Strict start st (p.finallyDo cleanup) := by
  intro x hx
  rw [Prog.finallyDo, wp_andThen]
  refine wp_mono logic (hp x hx) fun r x' hr => ?_
  rw [wp_andThen]
  cases r with
  | ok a =>
      refine wp_mono logic (hcleanup st x' hr) fun r' x'' hr' => ?_
      cases r' with
      | ok u => exact hr'
      | error e => exact hr'
  | error e =>
      refine wp_mono logic (hcleanup st.struck x' hr.2) fun r' x'' hr' => ?_
      cases r' with
      | ok u => exact ⟨hr.1, hr'⟩
      | error e' => exact ⟨hr'.1, by cases st <;> exact hr'.2⟩

theorem Strict.ite {b : Prop} [Decidable b] {p q : Py α} (hp : Strict start st p)
    (hq : Strict start st q) : Strict start st (if b then p else q) := by
  split
  · exact hp
  · exact hq

theorem keeps_throw {e : Raised} (he : e.isOwn = true) : Keeps start st (throw e : Py α) := by
  intro x hx
  change On start (st.result (Except.error e)) x
  rwa [Stage.result, if_pos he]

theorem Keeps.bind {p : Py α} {f : α → Py β} (hp : Keeps start st p)
    (hf : ∀ a, Keeps start st (f a)) : Keeps start st (p >>= f) :=
  fun x hx => wp_bind logic (hp x hx) (fun a x' hx' => hf a x' hx') fun _ _ he => he

theorem Keeps.ite {b : Prop} [Decidable b] {p q : Py α} (hp : Keeps start st p)
    (hq : Keeps start st q) : Keeps start st (if b then p else q) := by
  split
  · exact hp
  · exact hq

/-- A handler of the manager's own exceptions. -/
theorem Keeps.tryCatch {p : Py α} {handler : Raised → Py α} (hp : Keeps start st p)
    (hown : ∀ e, e.isOwn = true → Keeps start st (handler e))
    (hother : ∀ e, e.isOwn = false → handler e = throw e) :
    Keeps start st (tryCatch p handler) := by
  intro x hx
  refine wp_tryCatch logic (hp x hx) (fun a x' hx' => hx') fun e x' he => ?_
  cases heq : e.isOwn with
  | true =>
      refine hown e heq x' ?_
      simpa [Stage.result, heq] using he
  | false =>
      rw [hother e heq]
      exact he

theorem keeps_whileTrue {rounds : Nat} {body : Py (Option α)} (hbody : Keeps start st body) :
    Keeps start st (whileTrue rounds body) := by
  induction rounds with
  | zero => exact (strict_quiet rfl rfl).keeps.bind nofun
  | succ rounds ih =>
      refine hbody.bind fun a => ?_
      cases a with
      | some a => exact (strict_pure a).keeps
      | none => exact ih

end

end BrowserVpn.Manager
