import BrowserVpn.Extension.Calculus
import BrowserVpn.Extension.Handover
import BrowserVpn.Extension.Saving

/-!
# Extension.Reapply — no reapply loop

The tasks behind the `onChange` listeners set and clear the very settings whose
changes bring them about. What they can still do is bounded by a potential
(`Sys.potential`): what waits, and what is set aside for the own preferences
that can be given up, for the WebRTC policy that an enabled configuration can
still be given, and for the restoration that a takeover has left behind. Every
task pays for its calls out of the cost of its own start (`Purse`). With the
others fixed, only a refused question about incognito windows adds to it.
-/

namespace BrowserVpn

open Async

/-! ## Readings of the trace -/

/-- How many callbacks and tasks have begun. -/
def executions : List Obs → Nat
  | [] => 0
  | .began _ _ :: trace => executions trace + 1
  | .started _ _ :: trace => executions trace + 1
  | _ :: trace => executions trace

/-- What is counted of the questions that tasks ask about the incognito proxy. -/
inductive Tally where
  | refusals
  | answers
deriving DecidableEq

def Tally.counts : Tally → (c : Call) → Except String (Reply c) → Bool
  | .refusals, .isAllowedIncognitoAccess, .error _ => true
  | .refusals, .proxyGet true, .error _ => true
  | .answers, .proxyGet true, .ok _ => true
  | _, _, _ => false

/-- How often the tasks have got such a reply. -/
def Tally.count (T : Tally) : List Obs → Nat
  | [] => 0
  | .landed .op c r :: trace => T.count trace + if T.counts c r then 1 else 0
  | _ :: trace => T.count trace

/-! ## Prices -/

/-- What a call of a task can add to the potential. -/
def Call.price (enabled : Bool) : Call → Nat
  | .proxySet _ => 4
  | .webRTCSet v => if v = webRTCPolicy ∧ enabled then 0 else 24
  | .webRTCClear => if enabled then 12 else 0
  | .storageSet p => if p.enabled = some true then 12 else 0
  | _ => 0

/-- What is set aside for the settings: own preferences that can be given up,
and the WebRTC policy that an enabled configuration can still be given. -/
def World.due (w : World) : Nat :=
  (if w.proxy.own.isSome then 2 else 0) + (if w.webRTC.own.isSome then 6 else 0) +
    if w.storage.isEnabled ∧ w.webRTC.own ≠ some webRTCPolicy then 12 else 0

/-- What is set aside for a restoration, where the incognito proxy is known to
be controllable. -/
def bonus (level restore : Bool) : Nat := if level && restore then 4 else 0

theorem bonus_le (level restore : Bool) : bonus level restore ≤ 4 := by
  unfold bonus
  split <;> omega

@[simp] theorem bonus_false (level : Bool) : bonus level false = 0 := by
  simp [bonus]

@[simp] theorem bonus_level (restore : Bool) : bonus false restore = 0 := rfl

/-- The flag of an enabled configuration after a call. -/
def enabledAfter (enabled : Bool) : (c : Call) → Except String (Reply c) → Bool
  | .storageSet p, .ok _ => p.enabled.getD enabled
  | _, _ => enabled

section

variable [Browser] {w w' : World} {c : Call} {o : Outcome} {r : Except String (Reply c)}

section

omit [Browser]

theorem ChromeSetting.differs_self {V : Type} [DecidableEq V] (s : ChromeSetting V) :
    s.differs s = false := by
  simp [differs]

theorem World.raises_self (w : World) : w.raises w = 0 := by
  simp [raises, ChromeSetting.differs_self]

theorem Storage.isEnabled_set (s : Storage) (p : Patch) :
    (s.set p).isEnabled = p.enabled.getD s.isEnabled := by
  unfold Config.isEnabled set
  rcases p.enabled with _ | b <;> rfl

theorem World.raises_le (w w' : World) : w.raises w' ≤ 8 := by
  unfold raises
  split <;> split <;> omega

end

theorem World.land_enabled (h : w.land c o = some (r, w')) :
    w'.storage.isEnabled = enabledAfter w.storage.isEnabled c r := by
  cases c <;> cases o <;> simp only [World.land, reduceCtorEq, Option.some.injEq, Prod.mk.injEq] at h
  all_goals
    obtain ⟨rfl, rfl⟩ := h
    first
    | rfl
    | exact Storage.isEnabled_set _ _

section

omit [Browser]

/-- A move of the proxy preference raises one event at most. -/
theorem World.raises_proxy (p : ChromeSetting ProxyConfig) :
    w.raises { w with proxy := p } ≤ 2 := by
  unfold raises
  simp only [ChromeSetting.differs_self, Bool.false_eq_true, if_false]
  split <;> omega

theorem World.raises_webRTC (p : ChromeSetting WebRTCPolicy) :
    w.raises { w with webRTC := p } ≤ 6 := by
  unfold raises
  simp only [ChromeSetting.differs_self, Bool.false_eq_true, if_false]
  split <;> omega

/-- Giving up a preference is paid for by what is set aside for it. -/
theorem World.due_proxyClear :
    ({ w with proxy := { w.proxy with own := none } } : World).due +
      w.raises { w with proxy := { w.proxy with own := none } } ≤ w.due := by
  rcases hown : w.proxy.own with _ | v
  · have hw : ({ w with proxy := { w.proxy with own := none } } : World) = w := by
      rw [← hown]
    rw [hw, raises_self]
    exact Nat.le_refl _
  · have hraises := w.raises_proxy { w.proxy with own := none }
    generalize w.raises { w with proxy := { w.proxy with own := none } } = n at hraises ⊢
    simp only [due, hown, Option.isSome_some, Option.isSome_none, if_true, Bool.false_eq_true,
      if_false]
    omega

theorem World.due_webRTCClear :
    ({ w with webRTC := { w.webRTC with own := none } } : World).due +
      w.raises { w with webRTC := { w.webRTC with own := none } } ≤
        w.due + if w.storage.isEnabled then 12 else 0 := by
  rcases hown : w.webRTC.own with _ | v
  · have hw : ({ w with webRTC := { w.webRTC with own := none } } : World) = w := by
      rw [← hown]
    rw [hw, raises_self]
    omega
  · have hraises := w.raises_webRTC { w.webRTC with own := none }
    generalize w.raises { w with webRTC := { w.webRTC with own := none } } = n at hraises ⊢
    simp only [due, hown, Option.isSome_some, Option.isSome_none, if_true, Bool.false_eq_true,
      if_false]
    cases w.storage.isEnabled <;> simp <;> omega

/-- Restricting WebRTC is paid for by what is set aside for an enabled
configuration. -/
theorem World.due_webRTCSet (v : WebRTCPolicy) :
    ({ w with webRTC := { w.webRTC with own := some v } } : World).due +
      w.raises { w with webRTC := { w.webRTC with own := some v } } ≤
        w.due + if v = webRTCPolicy ∧ w.storage.isEnabled then 0 else 24 := by
  by_cases hown : w.webRTC.own = some v
  · have hw : ({ w with webRTC := { w.webRTC with own := some v } } : World) = w := by
      rw [← hown]
    rw [hw, raises_self]
    omega
  · have hraises := w.raises_webRTC { w.webRTC with own := some v }
    generalize w.raises { w with webRTC := { w.webRTC with own := some v } } = n at hraises ⊢
    by_cases hv : v = webRTCPolicy
    · subst hv
      simp only [due, ne_eq, hown, not_false_eq_true, and_true, not_true_eq_false, and_false,
        Option.isSome_some, true_and, if_true, if_false]
      cases w.storage.isEnabled <;> simp <;> omega
    · simp only [due, hv, false_and, if_false, Option.isSome_some, if_true]
      split <;> split <;> omega

end

/-- What a call adds to what is set aside, and the executions that it brings
about, are within its price. -/
theorem World.due_land (h : w.land c o = some (r, w')) :
    w'.due + w.raises w' ≤ w.due + c.price w.storage.isEnabled := by
  have hself : ∀ n, w.due + w.raises w ≤ w.due + n := fun n => by
    rw [raises_self]
    omega
  cases c with
  | proxySet v =>
      cases o <;> simp only [World.land, reduceCtorEq, Option.some.injEq, Prod.mk.injEq] at h <;>
        obtain ⟨-, rfl⟩ := h
      · have hraises := w.raises_proxy { w.proxy with own := some v }
        generalize w.raises { w with proxy := { w.proxy with own := some v } } = n at hraises ⊢
        simp only [due, Call.price, Option.isSome_some, if_true]
        omega
      · exact hself _
      · exact hself _
  | proxyClear =>
      cases o <;> simp only [World.land, reduceCtorEq, Option.some.injEq, Prod.mk.injEq] at h <;>
        obtain ⟨-, rfl⟩ := h
      · exact due_proxyClear
      · exact hself _
  | webRTCSet v =>
      cases o <;> simp only [World.land, reduceCtorEq, Option.some.injEq, Prod.mk.injEq] at h <;>
        obtain ⟨-, rfl⟩ := h
      · exact due_webRTCSet v
      · exact hself _
      · exact hself _
  | webRTCClear =>
      cases o <;> simp only [World.land, reduceCtorEq, Option.some.injEq, Prod.mk.injEq] at h <;>
        obtain ⟨-, rfl⟩ := h
      · exact due_webRTCClear
      · exact hself _
  | storageSet p =>
      cases o <;> simp only [World.land, reduceCtorEq, Option.some.injEq, Prod.mk.injEq] at h <;>
        obtain ⟨-, rfl⟩ := h
      · have hraises : w.raises { w with storage := w.storage.set p } = 0 := w.raises_self
        rw [hraises]
        simp only [due, Call.price, Storage.isEnabled_set]
        by_cases hown : w.webRTC.own = some webRTCPolicy
        · simp only [hown, ne_eq, not_true_eq_false, and_false, if_false]
          omega
        · rcases p.enabled with _ | (_ | _) <;> simp [hown]
      · exact hself _
  | _ =>
      cases o <;> simp only [World.land, reduceCtorEq, Option.some.injEq, Prod.mk.injEq] at h
      all_goals
        obtain ⟨-, rfl⟩ := h
        exact hself _

end

/-! ## The logic -/

/-- What a task knows of the state, and what it has left to pay with. -/
structure Purse where
  enabled : Bool
  restore : Bool
  credit : Nat

section

variable (T : Tally) (level : Bool)

/-- A call that has landed: it has been paid for, and a reply that counts adds
to the credit. -/
def Purse.land (x : Purse) (c : Call) (r : Except String (Reply c)) : Purse where
  enabled := enabledAfter x.enabled c r
  restore := x.restore
  credit := x.credit - c.price x.enabled + if T.counts c r then 4 else 0

/-- What a reply says to a task that knows `x`, while the incognito proxy stays
controllable or not. -/
def Purse.told (x : Purse) : (c : Call) → Except String (Reply c) → Prop
  | .storageGet, .ok data => data.isEnabled = x.enabled
  | .proxyGet true, .ok setting =>
      T = .refusals → setting.levelOfControl.controllable = level
  | _, _ => True

/-- A task pays for its calls and for the restorations it asks for. -/
@[reducible] def purseLogic : Logic api Purse where
  reads x v x' := x' = x ∧ v.restoreAfterIncognitoTakeover = x.restore
  mayWrite
    | .restoreAfterIncognitoTakeover b, x => bonus level b ≤ x.credit + bonus level x.restore
    | _, _ => True
  write
    | .restoreAfterIncognitoTakeover b, x =>
        { x with restore := b, credit := x.credit + bonus level x.restore - bonus level b }
    | _, x => x
  mayCall c x := c.price x.enabled ≤ x.credit
  issue _ x := x
  replies c x r x' := x' = x.land T c r ∧ x.told T level c r

instance : Ticks (purseLogic T level) where
  mayTick _ := Nat.zero_le _
  tick h := by
    rw [h.1]
    cases T <;> rfl

end

namespace Purse

variable {T : Tally} {level : Bool} {x x' x'' : Purse} {m n : Nat} {α β : Type}

/-- `x'` is what has become of `x` at a cost of `n`. -/
structure Pays (n : Nat) (x x' : Purse) : Prop where
  enabled : x'.enabled = x.enabled
  restore : x'.restore = x.restore
  credit : x.credit ≤ x'.credit + n

theorem Pays.refl (x : Purse) : x.Pays 0 x := ⟨rfl, rfl, Nat.le_refl _⟩

theorem Pays.trans (h : x.Pays m x') (h' : x'.Pays n x'') : x.Pays (m + n) x'' :=
  ⟨h'.enabled.trans h.enabled, h'.restore.trans h.restore, by
    have hm := h.credit
    have hn := h'.credit
    omega⟩

end Purse

/-- A call that costs nothing and leaves the configuration enabled or not. -/
def Call.Free (c : Call) : Prop :=
  ∀ enabled, c.price enabled = 0 ∧ ∀ r, enabledAfter enabled c r = enabled

/-- A function that costs nothing: it asks for no restoration. -/
abbrev Free {α : Type} (p : Js α) : Prop :=
  p.Within Call.Free fun w : Write => ∀ b, w ≠ .restoreAfterIncognitoTakeover b

section

variable {T : Tally} {level : Bool} {x x' : Purse} {m n : Nat} {α β : Type}

/-- Storing anything but the flag of an enabled configuration. -/
theorem Patch.free {p : Patch} (h : p.enabled = none) : (Call.storageSet p).Free := by
  intro enabled
  refine ⟨by simp [Call.price, h], fun r => ?_⟩
  cases r with
  | ok _ => simp [enabledAfter, h]
  | error e => rfl

theorem Call.free_of_records {c : Call} (h : c.records = true) : c.Free := by
  cases c with
  | storageSet p =>
      simp only [Call.records, Patch.errorOnly, Bool.and_eq_true, Option.isNone_iff_eq_none] at h
      exact Patch.free h.1.2
  | _ => first | exact fun _ => ⟨rfl, fun _ => rfl⟩ | cases h

theorem Records.free {p : Js α} (h : Records p) : Free p :=
  h.mono (fun _ => Call.free_of_records) fun _ hw => hw.elim

theorem Asks.free {p : Js α} (h : Asks p) : Free p := h.records.free

theorem free_await {p : Js α} (h : Free p) : Free (await p) :=
  within_await h fun _ => ⟨rfl, fun _ => rfl⟩

theorem free_ownProxyClearedForConflict (b : Bool) :
    Free (Prog.set (.ownProxyClearedForConflict b)) :=
  ⟨nofun, trivial⟩

theorem free_clearOwnProxySetting : Free clearOwnProxySetting :=
  within_chrome fun _ => ⟨rfl, fun _ => rfl⟩

theorem free_refuse (message : String) : Free (refuse message) :=
  .bind (free_await free_clearOwnProxySetting) fun _ => trivial

theorem free_ensureIncognitoWebRTC : Free ensureIncognitoWebRTC :=
  .bind (free_await asks_incognitoWebRTCIsRestricted.free) fun _ => trivial

theorem free_restrictedInAllEnabledContexts : Free webRTCIsRestrictedInAllEnabledContexts :=
  .bind (free_await (asks_webRTCSetting false).free) fun _ =>
    within_ite (free_await asks_incognitoWebRTCIsRestricted.free) trivial

theorem free_ensureRestricted (message : String) : Free (ensureRestricted message) :=
  .bind (free_await free_restrictedInAllEnabledContexts) fun _ => trivial

theorem free_ensureIncognitoProxy (expected : ProxyConfig) (message : String) :
    Free (ensureIncognitoProxy expected message) :=
  .bind (free_await (asks_incognitoProxyState expected).free) fun _ => trivial

theorem free_verifyRoute (expected : ProxyConfig) : Free (verifyRoute expected) :=
  .bind (free_await (asks_webRTCSetting false).free) fun _ =>
    .bind trivial fun _ => .bind free_ensureIncognitoWebRTC fun _ =>
      free_ensureIncognitoProxy expected _

theorem free_attempt {p : Js Unit} (h : Free p) : Free (attempt p) :=
  .tryCatch (free_await h) fun _ => trivial

theorem free_updateBadge [Platform] : Free updateBadge := records_updateBadge.free

theorem free_status [Platform] : Free status := asks_status.free

namespace Purse

theorem pays_land {c : Call} (h : c.Free) (r : Except String (Reply c)) :
    x.Pays 0 (x.land T c r) := by
  refine ⟨(h x.enabled).2 r, rfl, ?_⟩
  simp only [land, (h x.enabled).1]
  omega

/-- What costs nothing leaves the purse no poorer. -/
theorem free_spec {p : Js α} (hp : Free p) :
    wp (purseLogic T level) p (fun _ x' => x.Pays 0 x') x := by
  refine wp_of_within _ (I := (x.Pays 0 ·)) hp ?_ ?_ ?_ (.refl x)
  · rintro y v x' hy ⟨rfl, -⟩
    exact hy
  · intro w y hy hw
    cases w with
    | restoreAfterIncognitoTakeover b => exact absurd rfl (hw b)
    | _ => exact ⟨trivial, hy⟩
  · rintro c y hy hc
    refine ⟨(hc y.enabled).1.le.trans (Nat.zero_le _), ?_⟩
    rintro r x' ⟨rfl, -⟩
    exact hy.trans (pays_land hc r)

/-- A function that can pay for what it does from `x` on. -/
abbrev Affords (T : Tally) (level : Bool) (p : Js α) (x : Purse) : Prop :=
  wp (purseLogic T level) p (fun _ _ => True) x

theorem affords_free {p : Js α} (hp : Free p) : Affords T level p x :=
  wp_mono _ (free_spec hp) fun _ _ _ => trivial

theorem affords_bind {p : Js α} {f : α → Js β} (hp : Affords T level p x)
    (hf : ∀ a x', Affords T level (f a) x') : Affords T level (p >>= f) x :=
  wp_bind _ hp (fun a x' _ => hf a x') fun _ _ _ => trivial

/-- A function that costs nothing, and what follows. -/
theorem affords_free_bind {p : Js α} {f : α → Js β} (hp : Free p)
    (hf : ∀ a x', x.Pays 0 x' → Affords T level (f a) x') : Affords T level (p >>= f) x :=
  wp_bind _ (free_spec hp) (fun a x' h => hf a x' h) fun _ _ _ => trivial

variable [Platform]

/-- The operations end with the badge and the status. -/
theorem affords_finish : Affords T level (await updateBadge >>= fun _ => status) x :=
  affords_free_bind (free_await free_updateBadge) fun _ _ _ => affords_free free_status

/-! ## What each function pays -/

/-- What `incognitoProxyState` has found out, from `x` on: it may get credit for
being refused, or answered. -/
def Learns (level : Bool) (x : Purse) (st : IncognitoProxyState) (x' : Purse) : Prop :=
  (st.controllable = false → level = false ∨ x.credit + 4 ≤ x'.credit) ∧
    (st.levelOfControl = some .controllableByThisExtension →
      level = true ∨ x.credit + 4 ≤ x'.credit)

section

omit [Platform]

/-- A refusal counts, where refusals are counted. -/
theorem refused (hT : T = .answers → level = false) {c : Call} {e : String}
    (h : Tally.refusals.counts c (.error e) = true) (hc : c.Free) :
    level = false ∨ x.credit + 4 ≤ (x.land T c (.error e)).credit := by
  cases T with
  | refusals =>
      right
      simp only [land, (hc x.enabled).1, h, if_true]
      omega
  | answers => exact Or.inl (hT rfl)

theorem incognitoProxyState_pays (hT : T = .answers → level = false) (expected : ProxyConfig) :
    wp (purseLogic T level) (incognitoProxyState expected)
      (fun r x' => x.Pays 0 x' ∧ ∀ st, r = .ok st → x.Learns level st x') x := by
  have hallowed : Call.isAllowedIncognitoAccess.Free := fun _ => ⟨rfl, fun _ => rfl⟩
  have hget : (Call.proxyGet true).Free := fun _ => ⟨rfl, fun _ => rfl⟩
  refine wp_tryCatch _ (M := fun r x' => x.Pays 0 x' ∧ match r with
    | .ok st => x.Learns level st x'
    | .error _ => level = false ∨ x.credit + 4 ≤ x'.credit) ?_ ?_ ?_
  · refine wp_bind _ (wp_call _ (Nat.zero_le _)) ?_ ?_
    · rintro allowed _ ⟨rfl, -⟩
      have hpays : x.Pays 0 (x.land T .isAllowedIncognitoAccess (.ok allowed)) :=
        pays_land hallowed _
      split
      · refine wp_await_bind (wp_call (.proxyGet true) (Nat.zero_le _)) ?_ ?_
        · rintro setting _ ⟨rfl, htold⟩
          refine ⟨hpays.trans (pays_land hget _), fun hcontrol => ?_, fun hlevel => ?_⟩
          · cases T with
            | refusals => exact Or.inl ((htold rfl).symm.trans hcontrol)
            | answers => exact Or.inl (hT rfl)
          · cases T with
            | refusals =>
                left
                rw [← htold rfl, Option.some.inj hlevel]
                rfl
            | answers =>
                right
                have hcredit := hpays.credit
                simp only [land, Tally.counts, Call.price] at hcredit ⊢
                simp
        · rintro e _ ⟨rfl, -⟩
          refine ⟨hpays.trans (pays_land hget _), ?_⟩
          have hcredit := hpays.credit
          have hrefused := refused (x := x.land T .isAllowedIncognitoAccess (.ok allowed)) hT
            (e := e) rfl hget
          exact hrefused.imp_right fun h => (Nat.add_le_add_right hcredit 4).trans h
      · exact ⟨hpays, fun h => (by cases h), fun h => (by cases h)⟩
    · rintro e _ ⟨rfl, -⟩
      exact ⟨pays_land hallowed _, refused hT rfl hallowed⟩
  · rintro st x' ⟨hpays, hlearns⟩
    refine ⟨hpays, ?_⟩
    rintro _ ⟨⟩
    exact hlearns
  · rintro e x' ⟨hpays, hrefused⟩
    refine ⟨hpays, ?_⟩
    rintro _ ⟨⟩
    exact ⟨fun _ => hrefused, fun h => (by cases h)⟩

/-- Two functions one after the other. -/
theorem pays_bind {p : Js α} {f : α → Js β}
    (hp : wp (purseLogic T level) p (fun _ x' => x.Pays m x') x)
    (hf : ∀ a x', x.Pays m x' → wp (purseLogic T level) (f a) (fun _ x'' => x'.Pays n x'') x') :
    wp (purseLogic T level) (p >>= f) (fun _ x' => x.Pays (m + n) x') x := by
  refine wp_bind _ hp (fun a x' h => ?_) fun e x' h => ⟨h.enabled, h.restore, ?_⟩
  · exact wp_mono _ (hf a x' h) fun _ _ h' => h.trans h'
  · have hcredit := h.credit
    omega

/-- A configuration that is enabled has the WebRTC policy paid for. -/
theorem webRTCSet_pays (h : x.enabled = true) :
    wp (purseLogic T level) (chrome (.webRTCSet webRTCPolicy)) (fun _ x' => x.Pays 0 x') x := by
  have hprice : (Call.webRTCSet webRTCPolicy).price x.enabled = 0 := by simp [Call.price, h]
  refine wp_mono _ (wp_call _ (hprice.le.trans (Nat.zero_le _))) ?_
  rintro r x' ⟨rfl, -⟩
  refine ⟨rfl, rfl, ?_⟩
  simp only [land, hprice]
  omega

theorem restrictWebRTC_pays (h : x.enabled = true) :
    wp (purseLogic T level) restrictWebRTC (fun _ x' => x.Pays 0 x') x := by
  refine pays_bind (m := 0) (n := 0) (free_spec (free_await (asks_webRTCSetting false).free))
    fun rtc x₁ h₁ => wp_when (fun _ => ?_) fun _ => .refl _
  refine pays_bind (m := 0) (n := 0) (free_spec (free_await free_clearOwnProxySetting)) fun _ x₂ h₂ => ?_
  refine pays_bind (m := 0) (n := 0) (free_spec (within_ensure _ _)) fun _ x₃ h₃ => ?_
  refine pays_bind (m := 0) (n := 0) (webRTCSet_pays ?_) fun _ x₄ h₄ => ?_
  · rw [h₃.enabled, h₂.enabled, h₁.enabled, h]
  · exact free_spec (.bind (free_await (asks_webRTCSetting false).free) fun _ => trivial)

theorem setProxy_pays (expected : ProxyConfig) (message : String) (h : 4 ≤ x.credit) :
    wp (purseLogic T level) (setProxy expected message) (fun _ x' => x.Pays 4 x') x := by
  refine pays_bind (m := 4) (n := 0) (wp_mono _ (wp_call _ h) ?_) fun _ _ _ => free_spec ?_
  · rintro r x' ⟨rfl, -⟩
    refine ⟨rfl, rfl, ?_⟩
    simp only [land, Call.price]
    omega
  · exact .bind (free_await (asks_effectiveSetting false).free) fun _ => trivial

theorem affords_setProxy (expected : ProxyConfig) (message : String) (h : 4 ≤ x.credit) :
    Affords T level (setProxy expected message) x :=
  wp_mono _ (setProxy_pays expected message h) fun _ _ _ => trivial

/-- The stored configuration, as it is read. -/
theorem affords_stored_bind {f : Storage → Js β}
    (h : ∀ data x', x.Pays 0 x' → data.isEnabled = x'.enabled → Affords T level (f data) x') :
    Affords T level (await stored >>= f) x := by
  have hget : Call.storageGet.Free := fun _ => ⟨rfl, fun _ => rfl⟩
  refine wp_await_bind (wp_call .storageGet (Nat.zero_le _)) ?_ fun _ _ _ => trivial
  rintro data _ ⟨rfl, htold⟩
  exact h data _ (pays_land hget _) htold

/-- The configuration is disabled before the own preferences are given up. -/
theorem affords_disable_bind {p : Patch} {f : Unit → Js β} (hp : p.enabled = some false)
    (h : ∀ x', x'.enabled = false → Affords T level (f ()) x') :
    Affords T level (chrome (.storageSet p) >>= f) x := by
  refine wp_bind _ (wp_call _ ?_) ?_ fun _ _ _ => trivial
  · simp [Call.price, hp]
  · rintro _ _ ⟨rfl, -⟩
    exact h _ (by simp [land, enabledAfter, hp])

theorem affords_clearOwnSettings (h : x.enabled = false) :
    Affords T level clearOwnSettings x := by
  refine affords_free_bind (free_await free_clearOwnProxySetting) fun _ x' h' => wp_await ?_
  refine wp_mono _ (wp_call .webRTCClear ?_) fun _ _ _ => trivial
  simp [Call.price, h'.enabled, h]

/-- A takeover of the incognito proxy has a restoration to pay for only where
the task has been refused. -/
theorem Learns.bonus_le {st : IncognitoProxyState} (h : x.Learns level st x')
    (hst : st.controllable = false) (restore : Bool) :
    bonus level restore ≤ x'.credit := by
  rcases h.1 hst with rfl | hcredit
  · exact Nat.zero_le _
  · exact (BrowserVpn.bonus_le level restore).trans (by omega)

theorem affords_tryCatch {p : Js α} {h : String → Js α} (hp : Affords T level p x)
    (hh : ∀ e x', Affords T level (h e) x') : Affords T level (tryCatch p h) x :=
  wp_tryCatch _ (M := fun _ _ => True) hp (fun _ _ _ => trivial) fun e x' _ => hh e x'

/-- The flags that a restored route resets. -/
theorem affords_reset : Affords T level (do
    Prog.set (.restoreAfterIncognitoTakeover false)
    Prog.set (.ownProxyClearedForConflict false)) x :=
  ⟨by simp, trivial, trivial⟩

end

theorem affords_restoreRoute (hT : T = .answers → level = false) (connection : Connection)
    (exclusions : List JsString) (h : x.enabled = true) (hcredit : 4 ≤ x.credit) :
    Affords T level (restoreRoute connection exclusions) x := by
  refine wp_bind _ (restrictWebRTC_pays h) (fun _ x₁ h₁ => ?_) fun _ _ _ => trivial
  refine affords_free_bind free_ensureIncognitoWebRTC fun _ x₂ h₂ => ?_
  refine affords_free_bind (free_await (asks_effectiveSetting false).free) fun setting x₃ h₃ => ?_
  refine wp_ensure_bind (fun _ => ?_) fun _ => trivial
  refine wp_lift_bind (fun expected _ => ?_) fun _ _ => trivial
  refine wp_await_bind (incognitoProxyState_pays hT expected) ?_ fun _ _ _ => trivial
  rintro st x₄ ⟨h₄, hlearns⟩
  refine wp_when_bind (fun hst => ⟨?_, trivial⟩) fun _ => ?_
  · have hbonus := (hlearns st rfl).bonus_le (by simpa using hst) true
    exact hbonus.trans (Nat.le_add_right _ _)
  · have hleft : 4 ≤ x₄.credit := by
      have hpays := ((h₁.trans h₂).trans h₃).trans h₄
      exact hcredit.trans hpays.credit
    refine affords_bind (wp_when (fun _ => affords_setProxy _ _ hleft) fun _ => trivial) ?_
    intro _ x₅
    exact affords_free_bind (free_verifyRoute expected) fun _ _ _ => affords_reset

theorem affords_reconcileRoute (hT : T = .answers → level = false) (data : Config)
    (hdata : data.isEnabled = x.enabled) (hcredit : 4 ≤ x.credit) :
    Affords T level (reconcileRoute data) x := by
  unfold reconcileRoute
  split
  · exact affords_disable_bind rfl fun x' h => affords_clearOwnSettings h
  · refine wp_when_bind (fun _ => ?_) fun henabled => ?_
    · exact affords_disable_bind rfl fun x' h => affords_clearOwnSettings h
    · exact affords_clearOwnSettings (hdata.symm.trans henabled)
  · split
    · rename_i hdisabled
      refine affords_clearOwnSettings (hdata.symm.trans ?_)
      simpa using hdisabled
    · rename_i henabled
      have henabled : x.enabled = true := by
        rw [← hdata]
        simpa using henabled
      exact affords_tryCatch (affords_restoreRoute hT _ _ henabled hcredit) fun _ _ =>
        affords_free (free_await free_clearOwnProxySetting)

theorem affords_reconcileAtStartup (hT : T = .answers → level = false) (hcredit : 4 ≤ x.credit) :
    Affords T level reconcileAtStartup x := by
  refine affords_free_bind (within_chrome fun _ => ⟨rfl, fun _ => rfl⟩) fun _ x₁ h₁ => ?_
  refine affords_stored_bind fun data x₂ h₂ hdata => ?_
  have hleft : 4 ≤ x₂.credit := hcredit.trans (h₁.trans h₂).credit
  refine affords_bind (affords_reconcileRoute hT _ hdata hleft) fun _ _ => ?_
  exact affords_free (free_await free_updateBadge)

theorem affords_importKey (key : JsVal) : Affords T level (importKey key) x := by
  refine wp_lift_bind (fun connection _ => ?_) fun _ _ => trivial
  refine affords_disable_bind rfl fun x' h => ?_
  refine affords_bind (affords_clearOwnSettings h) fun _ _ => ?_
  refine affords_bind (wp_mono _ (wp_call _ (Nat.zero_le _)) fun _ _ _ => trivial) fun _ _ => ?_
  exact affords_finish

theorem affords_disconnect : Affords T level disconnect x := by
  refine ⟨by simp, trivial, ?_⟩
  refine affords_disable_bind rfl fun x' h => ?_
  exact affords_bind (affords_clearOwnSettings h) fun _ _ => affords_finish

theorem affords_forget : Affords T level forget x := by
  refine affords_bind (wp_await affords_disconnect) fun _ _ => ?_
  refine affords_free_bind (within_chrome fun _ => ⟨rfl, fun _ => rfl⟩) fun _ _ _ => ?_
  exact affords_finish

omit [Platform] in
/-- The route that `connect` establishes: the WebRTC policy is paid for by the
enabled configuration. -/
theorem affords_establishRoute (expected : ProxyConfig) (h : x.enabled = true)
    (hcredit : 4 ≤ x.credit) : Affords T level (establishRoute expected) x := by
  refine wp_bind _ (webRTCSet_pays h) (fun _ x₁ h₁ => ?_) fun _ _ _ => trivial
  refine affords_free_bind (free_await (asks_webRTCSetting false).free) fun rtc x₂ h₂ => ?_
  refine wp_ensure_bind (fun _ => ?_) fun _ => trivial
  refine affords_free_bind free_ensureIncognitoWebRTC fun _ x₃ h₃ => ?_
  have hleft : 4 ≤ x₃.credit := hcredit.trans ((h₁.trans h₂).trans h₃).credit
  refine affords_bind (affords_setProxy expected _ hleft) fun _ _ => ?_
  exact affords_free (.bind (free_ensureIncognitoProxy _ _) fun _ => free_ensureRestricted _)

theorem affords_abandonRoute (error : String) : Affords T level (abandonRoute error) x := by
  refine affords_disable_bind rfl fun x' h => ?_
  refine affords_bind (affords_clearOwnSettings h) fun _ _ => ?_
  exact affords_free (.bind (free_await free_updateBadge) fun _ => trivial)

theorem affords_enableRoute (expected : ProxyConfig) (rtc : Setting WebRTCPolicy)
    (hcredit : 16 ≤ x.credit) : Affords T level (enableRoute expected rtc) x := by
  have hclear : Free (when (!webRTCIsRestricted rtc) (await clearOwnProxySetting)) :=
    within_when (free_await free_clearOwnProxySetting)
  refine affords_free_bind hclear fun _ x₁ h₁ => ?_
  have hleft := hcredit.trans h₁.credit
  refine wp_bind _ (wp_call _ ?_) ?_ fun _ _ _ => trivial
  · show 12 ≤ x₁.credit
    omega
  · rintro _ _ ⟨rfl, -⟩
    refine affords_bind (affords_tryCatch (affords_establishRoute expected rfl ?_) fun e _ =>
      affords_abandonRoute e) fun _ _ => ⟨by simp, trivial, affords_finish⟩
    show 4 ≤ x₁.credit - 12 + _
    omega

theorem affords_connect (hcredit : 16 ≤ x.credit) :
    Affords T level connect x := by
  refine affords_stored_bind fun data x₁ h₁ _ => ?_
  refine wp_lift_bind (fun connection _ => ?_) fun _ _ => trivial
  refine wp_lift_bind (fun exclusions _ => ?_) fun _ _ => trivial
  refine affords_free_bind (free_await (asks_effectiveSetting false).free) fun setting x₂ h₂ => ?_
  refine affords_free_bind (within_when (free_refuse _)) fun _ x₃ h₃ => ?_
  refine wp_lift_bind (fun expected _ => ?_) fun _ _ => trivial
  refine affords_free_bind (free_await (asks_incognitoProxyState expected).free)
    fun incognito x₄ h₄ => ?_
  refine affords_free_bind (within_when (free_refuse _)) fun _ x₅ h₅ => ?_
  refine affords_free_bind (free_await (asks_webRTCSetting false).free) fun rtc x₆ h₆ => ?_
  refine affords_free_bind (within_when (free_refuse _)) fun _ x₇ h₇ => ?_
  have hpays := (((((h₁.trans h₂).trans h₃).trans h₄).trans h₅).trans h₆).trans h₇
  exact affords_enableRoute expected rtc (hcredit.trans hpays.credit)

/-- The checks of `saveExclusions`: they cost nothing unless they throw. -/
theorem checkRoute_pays (hT : T = .answers → level = false) (connection : Connection)
    (old : Config) :
    wp (purseLogic T level) (checkRoute connection old)
      (fun r x' => r = .ok () → x.Pays 0 x') x := by
  refine wp_bind _ (free_spec (free_await (asks_effectiveSetting false).free))
    (fun setting x₁ h₁ => ?_) (fun _ _ _ h => by cases h)
  refine wp_bind _ (free_spec (within_when (free_refuse _)))
    (fun _ x₂ h₂ => ?_) (fun _ _ _ h => by cases h)
  refine wp_bind _ (free_spec (free_await free_restrictedInAllEnabledContexts))
    (fun restricted x₃ h₃ => ?_) (fun _ _ _ h => by cases h)
  refine wp_bind _ (free_spec (within_when (free_refuse _)))
    (fun _ x₄ h₄ => ?_) (fun _ _ _ h => by cases h)
  refine wp_lift_bind (fun exclusions _ => ?_) fun _ _ h => by cases h
  refine wp_lift_bind (fun expected _ => ?_) fun _ _ h => by cases h
  refine wp_await_bind (incognitoProxyState_pays hT expected) ?_ fun _ _ _ h => by cases h
  rintro st x₅ ⟨h₅, hlearns⟩
  refine wp_when (fun hst => wp_set_bind ?_ ?_) fun _ _ =>
    (((h₁.trans h₂).trans h₃).trans h₄).trans h₅
  · have hbonus := (hlearns st rfl).bonus_le (by simpa using hst) true
    exact hbonus.trans (Nat.le_add_right _ _)
  · exact wp_bind _ (free_spec (free_await free_clearOwnProxySetting)) (fun _ _ _ h => by cases h)
      fun _ _ _ h => by cases h

/-- The new exclusions take one `set`. -/
theorem applyExclusions_pays (connection : Connection) (exclusions : List JsString)
    (hcredit : 4 ≤ x.credit) :
    wp (purseLogic T level) (applyExclusions connection exclusions) (fun _ x' => x.Pays 4 x') x := by
  have hfree : x.Pays 4 x := ⟨rfl, rfl, by omega⟩
  refine wp_lift_bind (fun expected _ => ?_) fun _ _ => hfree
  refine pays_bind (m := 4) (n := 0) (setProxy_pays expected _ hcredit) fun _ x₁ h₁ => ?_
  exact free_spec (.bind (free_ensureIncognitoProxy _ _) fun _ => free_ensureRestricted _)

theorem affords_rollbackExclusions (connection : Connection) (old : Config) (error : String)
    (hcredit : 4 ≤ x.credit) : Affords T level (rollbackExclusions connection old error) x := by
  refine affords_free_bind (within_chrome (Patch.free rfl)) fun _ x₁ h₁ => ?_
  refine affords_bind (affords_tryCatch ?_ fun _ _ =>
    affords_free (free_attempt free_clearOwnProxySetting)) fun _ _ =>
      affords_free (.bind (free_await free_updateBadge) fun _ => trivial)
  refine wp_lift_bind (fun exclusions _ => ?_) fun _ _ => trivial
  refine wp_lift_bind (fun previous _ => ?_) fun _ _ => trivial
  refine affords_free_bind (free_ensureRestricted _) fun _ x₂ h₂ => ?_
  refine affords_free_bind (free_await (asks_incognitoProxyState previous).free)
    fun incognito x₃ h₃ => ?_
  refine wp_ensure_bind (fun _ => ?_) fun _ => trivial
  have hleft : 4 ≤ x₃.credit := hcredit.trans ((h₁.trans h₂).trans h₃).credit
  refine affords_bind (affords_setProxy previous _ hleft) fun _ _ => ?_
  exact affords_free (.bind (free_ensureIncognitoProxy _ _) fun _ => free_ensureRestricted _)

theorem affords_saveExclusions (hT : T = .answers → level = false) (text : JsVal)
    (hcredit : 8 ≤ x.credit) : Affords T level (saveExclusions text) x := by
  refine wp_lift_bind (fun exclusions _ => ?_) fun _ _ => trivial
  refine affords_stored_bind fun old x₁ h₁ _ => ?_
  refine wp_lift_bind (fun connection _ => ?_) fun _ _ => trivial
  refine wp_bind _ (M := fun r x' => r = .ok () → x₁.Pays 0 x') ?_ (fun _ x₂ h₂ => ?_)
    fun _ _ _ => trivial
  · exact wp_when (fun _ => checkRoute_pays hT connection _) fun _ _ => .refl _
  have h₂ := h₂ rfl
  refine affords_free_bind (within_chrome (Patch.free rfl)) fun _ x₃ h₃ => ?_
  have hleft : 8 ≤ x₃.credit := hcredit.trans ((h₁.trans h₂).trans h₃).credit
  refine affords_bind (wp_when (fun _ => ?_) fun _ => trivial) fun _ _ =>
    ⟨trivial, affords_finish⟩
  -- One `set` for the new exclusions, one for the way back.
  refine wp_tryCatch _ (applyExclusions_pays connection exclusions (by omega))
    (fun _ _ _ => trivial) fun e x₄ h₄ => affords_rollbackExclusions connection _ e ?_
  have hpaid := h₄.credit
  omega

omit [Platform] in
theorem Learns.pays {st : IncognitoProxyState} (h : x.Learns level st x') (hpays : x'.Pays 0 x'') :
    x.Learns level st x'' :=
  ⟨fun hst => (h.1 hst).imp_right fun hcredit => hcredit.trans hpays.credit,
    fun hst => (h.2 hst).imp_right fun hcredit => hcredit.trans hpays.credit⟩

omit [Platform] in
/-- The conflict test of the proxy listener. It keeps the credit, unless the
incognito proxy is known to be controllable: then a restoration is paid for by
what is set aside for it. -/
theorem clearOnConflict_pays {st : IncognitoProxyState} (h : x.Learns level st x') :
    wp (purseLogic T level) (clearOnConflict st)
      (fun _ y => level = false → x'.credit ≤ y.credit) x' := by
  have hkept : ∀ b, level = false →
      x'.credit ≤ x'.credit + bonus level x'.restore - bonus level b := by
    rintro b rfl
    exact Nat.le_refl _
  unfold clearOnConflict
  split
  · exact ⟨by simp, trivial, hkept false⟩
  · refine wp_get_bind ?_
    rintro v _ ⟨rfl, -⟩
    refine wp_when (fun _ => wp_set_bind ?_ ?_) fun _ _ => Nat.le_refl _
    · cases hst : st.controllable with
      | true => simp
      | false => exact (h.bonus_le hst true).trans (Nat.le_add_right _ _)
    · refine wp_bind _ (free_spec (free_await free_clearOwnProxySetting)) (fun _ y hy => ?_)
        fun _ y hy hlevel => (hkept _ hlevel).trans hy.credit
      exact ⟨trivial, fun hlevel => (hkept _ hlevel).trans hy.credit⟩

/-- The restore test of the proxy listener. -/
theorem affords_restoreAfterTakeover (hT : T = .answers → level = false)
    (st : IncognitoProxyState) (regular : Setting ProxyConfig)
    (h : st.levelOfControl = some .controllableByThisExtension → level = true ∨ 4 ≤ x.credit) :
    Affords T level (restoreAfterTakeover st regular) x := by
  refine wp_get_bind ?_
  rintro v x' ⟨hx, hrestore⟩
  rw [hx]
  refine wp_when (fun htest => ?_) fun _ => trivial
  simp only [Bool.and_eq_true, beq_iff_eq] at htest
  obtain ⟨⟨htest, hlevel⟩, -⟩ := htest
  have hrestore : x.restore = true := hrestore.symm.trans htest
  refine affords_free_bind (free_await free_restrictedInAllEnabledContexts) fun restricted y hy => ?_
  refine wp_when (fun _ => wp_set_bind (by simp) ?_) fun _ => trivial
  refine wp_set_bind trivial (wp_await (affords_reconcileAtStartup hT ?_))
  show 4 ≤ y.credit + bonus level y.restore - bonus level false
  have hcredit := hy.credit
  rw [hy.restore, hrestore, bonus_false]
  rcases h hlevel with rfl | hfunded
  · simp [bonus]
  · omega

theorem affords_onProxyChange (hT : T = .answers → level = false) :
    Affords T level onProxyChange x := by
  unfold onProxyChange Prog.finallyDo
  rw [Affords, wp_andThen]
  refine wp_mono _ (Q := fun _ _ => True) ?_ fun r y _ => ?_
  · refine affords_stored_bind fun data x₁ h₁ _ => wp_when (fun _ => ?_) fun _ => trivial
    refine wp_lift_bind (fun connection _ => ?_) fun _ _ => trivial
    refine wp_lift_bind (fun exclusions _ => ?_) fun _ _ => trivial
    refine wp_lift_bind (fun expected _ => ?_) fun _ _ => trivial
    refine wp_await_bind (incognitoProxyState_pays hT expected) ?_ fun _ _ _ => trivial
    rintro st x₂ ⟨h₂, hlearns⟩
    have hlearns := hlearns st rfl
    refine affords_free_bind (free_await (asks_effectiveSetting false).free)
      fun regular x₃ h₃ => ?_
    refine wp_bind _ (clearOnConflict_pays (hlearns.pays h₃)) (fun _ y hy => ?_)
      fun _ _ _ => trivial
    refine affords_restoreAfterTakeover hT st regular fun hst => ?_
    cases hlevel : level with
    | true => exact Or.inl rfl
    | false =>
        rcases (hlearns.pays h₃).2 hst with h | h
        · exact Or.inl (hlevel.symm.trans h)
        · exact Or.inr ((by omega : 4 ≤ x₃.credit).trans (hy hlevel))
  · rw [wp_andThen]
    refine wp_mono _ (affords_free (free_await free_updateBadge)) fun r' y' _ => ?_
    cases r' <;> trivial

/-- Every task can pay for what it does out of the cost of its start. -/
theorem affords_body (hT : T = .answers → level = false) (op : Op)
    (hcredit : op.cost ≤ x.credit + 1) : Affords T level op.body x := by
  have hsub : ∀ n, op.cost = n + 1 → n ≤ x.credit := by
    intro n hn
    omega
  cases hop : op.neutral with
  | true => exact affords_free (records_body hop).free
  | false =>
      refine wp_await ?_
      cases op with
      | importKey key => exact wp_map _ (affords_importKey key)
      | connect => exact wp_map _ (affords_connect (hsub 16 rfl))
      | disconnect => exact wp_map _ affords_disconnect
      | forget => exact wp_map _ affords_forget
      | saveExclusions text => exact wp_map _ (affords_saveExclusions hT text (hsub 8 rfl))
      | proxyChanged => exact wp_map _ (affords_onProxyChange hT)
      | webRTCChanged => exact wp_map _ (affords_reconcileAtStartup hT (hsub 4 rfl))
      | _ => cases hop

end Purse

end

end BrowserVpn
