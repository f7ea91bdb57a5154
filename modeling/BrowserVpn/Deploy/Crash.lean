import BrowserVpn.Deploy.Stages

/-!
# Deploy.Crash — publication survives a crash

Each function of the cycle is taken through its stages, and from that follows what
holds of the directory at any moment: whatever cycles have run, however they ended,
`current` names a complete pair that was accepted as it stands, and no version
directory ever changes.
-/

namespace BrowserVpn.Manager

open Async Data

section

variable {α : Type} {start : Option (Node Name Bytes)} {st : Stage} {s s' : Tls} {ms : History}
  {x : Tls × History}

/-! ## Files -/

theorem strict_fsyncDirectory (path : Place) : Strict start st (fsyncDirectory path) := by
  refine Strict.bind (strict_quiet rfl rfl) fun _ => ?_
  exact (strict_quiet rfl rfl).finallyDo fun _ => strict_quiet rfl rfl

/-- A call at a hidden entry of the directory. -/
theorem strict_entry {n : Name} {c : Call} (hn : IsHidden n)
    (hc : ∀ s q, c.touches s q → [n] <+: q) (hset : c.isSetUp = false) :
    Strict start st (request c) := by
  refine strict_request (fun s q hq => ?_) hset
  obtain ⟨rest, rfl⟩ := hc s q hq
  exact ⟨n, rest, rfl, hn⟩

theorem strict_removeStaging {staging : Name} (hn : IsHidden staging) :
    Strict start st (removeStaging staging) :=
  Strict.bind (strict_quiet rfl rfl) fun _ =>
    .ite (strict_entry hn (fun _ _ hq => hq) rfl) (strict_pure ())

/-- The `finally` of `switch_to_version`. -/
theorem strict_unlinkLink {link : Name} (hn : IsHidden link) :
    Strict start st (do
      if ← request (.lexists [link]) then
        request (.unlink [link])) :=
  Strict.bind (strict_quiet rfl rfl) fun _ =>
    .ite (strict_entry hn (fun _ _ hq => hq) rfl) (strict_pure ())

theorem within_request {C : Call → Prop} {c : Call} (h : C c) :
    (request c).Within C fun _ => True :=
  ⟨h, fun _ => trivial⟩

theorem inside_fsyncDirectory (n : Name) (path : Place) :
    (fsyncDirectory path).Within (fun c : Call => c.Inside n) fun _ => True :=
  (within_request trivial).bind fun _ =>
    (within_request trivial).finallyDo (within_request trivial)

theorem inside_atomicWrite (n f : Name) (data : Bytes) :
    (atomicWrite [n] f data).Within (fun c : Call => c.Inside n) fun _ => True := by
  refine .bind (within_request rfl) fun temporary => .finallyDo ?_ ?_
  · refine .bind (within_request trivial) fun _ => .bind (.finallyDo ?_ (within_request trivial)) ?_
    · refine .bind (within_request ⟨temporary, rfl⟩) fun _ => ?_
      refine .bind (within_request trivial) fun _ => ?_
      exact .bind (within_request trivial) fun _ => within_request trivial
    · refine fun _ => .bind (within_request ⟨⟨temporary, rfl⟩, f, rfl⟩) fun _ => ?_
      exact inside_fsyncDirectory n [n]
  · refine .bind (within_request trivial) fun found => ?_
    split
    · exact within_request ⟨temporary, rfl⟩
    · trivial

/-! ## Switching -/

theorem isHidden_link (token : Name) : IsHidden (".current-".toList ++ token) := by simp [IsHidden]

theorem isHidden_staging (token : Name) : IsHidden (".staging-".toList ++ token) := by
  simp [IsHidden]

/-- What a program that switches once leaves: when it raises, `current` may or may
not have been replaced before. -/
def Switching (start : Option (Node Name Bytes)) (st : Stage) (r : api.Settled Unit)
    (x : Tls × History) : Prop :=
  match r with
  | .ok _ => On start st.switched x
  | .error _ => On start st.struck x ∨ On start st.switched.struck x

theorem wp_finallyDo_switching {p : Py Unit} {cleanup : Py Unit}
    (hp : wp logic p (Switching start st) x) (hcleanup : ∀ st, Strict start st cleanup) :
    wp logic (p.finallyDo cleanup) (Switching start st) x := by
  have hstruck (st : Stage) : st.struck.struck = st.struck := by cases st <;> rfl
  rw [Prog.finallyDo, wp_andThen]
  refine wp_mono logic hp fun r x' hr => ?_
  rw [wp_andThen]
  cases r with
  | ok a =>
      refine wp_mono logic (hcleanup _ x' hr) fun r' x'' hr' => ?_
      cases r' with
      | ok u => exact hr'
      | error e => exact .inr hr'.2
  | error e =>
      obtain hx | hx := hr
      · refine wp_mono logic (hcleanup _ x' hx) fun r' x'' hr' => ?_
        cases r' with
        | ok u => exact .inl hr'
        | error e' => exact .inl (hstruck st ▸ hr'.2)
      · refine wp_mono logic (hcleanup _ x' hx) fun r' x'' hr' => ?_
        cases r' with
        | ok u => exact .inr hr'
        | error e' => exact .inr (hstruck st.switched ▸ hr'.2)

/-- The one call that replaces `current`. -/
theorem wp_replaceCurrent {link name : Name} (hx : On start st (s, ms)) (hlink : IsHidden link)
    (hnamed : s.tree.node [link] = some (.link name)) (hversion : IsVersion name)
    (hnode : s.tree.node [name] ≠ none) (htarget : st.target start name) :
    wp logic (request (.replace [link] [current])) (Switching start st) (s, ms) := by
  have hentitled : Entitled (.replace [link] [current]) s :=
    ⟨hx.consistent, fun r s' he =>
      ⟨(effect_switch he hx.consistent hlink hnamed hversion hnode).2.1, fun _ => ⟨[link], rfl⟩⟩⟩
  refine wp_request hentitled fun r s' he => ?_
  obtain ⟨hs, hkept, -, hunchanged | hnow⟩ :=
    effect_switch he hx.consistent hlink hnamed hversion hnode
  · obtain ⟨rfl, hr⟩ := hunchanged
    cases r with
    | ok u => exact absurd rfl hr
    | error e =>
        have hon := hx.still (c := .replace [link] [current]) (r := .error e) hs hkept rfl
        exact .inl hon
  · have hon := hx.switch (r := r) (c := .replace [link] [current]) hs hkept hnow htarget
    cases r with
    | ok u => exact hon
    | error e => exact .inr hon

theorem wp_switchToVersion {name : Name} (hx : On start st (s, ms)) (hversion : IsVersion name)
    (hnode : s.tree.node [name] ≠ none) (htarget : st.target start name) :
    wp logic (switchToVersion name) (Switching start st) (s, ms) := by
  refine wp_bind logic (wp_hidden hx (Call.hidden_of_quiet rfl) rfl) ?_
    fun e x' he => .inl he.1.2
  rintro token ⟨s₁, ms₁⟩ ⟨hx₁, he₁⟩
  have hlink := isHidden_link token
  refine wp_finallyDo_switching ?_ fun st => strict_unlinkLink hlink
  have hsym : (Call.symlinkTo [".current-".toList ++ token] name).Hidden s₁ :=
    fun q hq => by
      obtain ⟨rest, rfl⟩ := hq
      exact ⟨_, rest, rfl, hlink⟩
  refine wp_bind logic (wp_hidden hx₁ hsym rfl) ?_ fun e x' he => .inl he.1.2
  rintro u ⟨s₂, ms₂⟩ ⟨hx₂, he₂⟩
  have hnode₂ : s₂.tree.node [name] ≠ none := by
    rwa [hsym.frame he₂ hversion.not_hidden [], effect_quiet he₁ rfl]
  refine wp_bind logic (wp_replaceCurrent hx₂ hlink (effect_symlinkTo he₂) hversion hnode₂ htarget)
    ?_ fun e x' he => he
  intro u x₃ hx₃
  refine wp_mono logic (strict_fsyncDirectory [] x₃ hx₃) fun r x' hr => ?_
  cases r with
  | ok u => exact hr
  | error e => exact .inr hr.2

/-! ## Publishing -/

theorem quiet_request {c : Call} (hc : c.quiet = true) :
    (request c).Within (fun c : Call => c.quiet = true) fun _ => True :=
  within_request hc

theorem quiet_fsyncDirectory (path : Place) :
    (fsyncDirectory path).Within (fun c : Call => c.quiet = true) fun _ => True :=
  (quiet_request rfl).bind fun _ => (quiet_request rfl).finallyDo (quiet_request rfl)

theorem quiet_lineageIsComplete :
    lineageIsComplete.Within (fun c : Call => c.quiet = true) fun _ => True := by
  refine (quiet_request rfl).bind fun found => ?_
  split
  · exact quiet_request rfl
  · trivial

theorem quiet_refuseSymlink (target : Name) (file : PairFile) :
    (refuseSymlink target file).Within (fun c : Call => c.quiet = true) fun _ => True := by
  refine (quiet_request rfl).bind fun found => ?_
  split <;> trivial

theorem quiet_matchingPublishedPair (certData keyData : Bytes) :
    (matchingPublishedPair certData keyData).Within (fun c : Call => c.quiet = true)
      fun _ => True := by
  refine .tryCatch ?_ fun e => ?_
  · refine (quiet_request rfl).bind fun cert => ?_
    split
    · exact (quiet_request rfl).bind fun key => trivial
    · trivial
  · split <;> trivial

theorem effect_lexists {p : Place} {found : Bool} (h : effect s (.lexists p) (.ok found) s') :
    found = (s.tree.lstat p).isSome := by
  replace h : s.perform (.lexists p) found = some s' := h
  simp only [Tls.perform] at h
  split at h
  · assumption
  · cases h

theorem effect_readlink {p : Place} {target : Name}
    (h : effect s (.readlink p) (.ok target) s') : s.tree.lstat p = some (.link target) := by
  replace h : s.perform (.readlink p) target = some s' := h
  simp only [Tls.perform] at h
  split at h
  · assumption
  · cases h

/-- `current_target` returns what `current` names. -/
theorem wp_currentTarget (hx : On start .before (s, ms)) :
    wp logic currentTarget
      (fun r x' => On start .before x' ∧ ∀ t, r = .ok t → start = t.map .link) (s, ms) := by
  have hlstat {s : Tls} {ms : History} (hx : On start .before (s, ms)) :
      s.tree.lstat [current] = start := hx.now rfl
  refine wp_bind logic (wp_hidden hx (Call.hidden_of_quiet rfl) rfl) ?_
    fun e x' he => ⟨he.1.2, nofun⟩
  rintro found ⟨s₁, ms₁⟩ ⟨hx₁, he₁⟩
  have hfound := effect_lexists he₁
  rw [hlstat hx] at hfound
  split
  · rename_i habsent
    refine ⟨hx₁, fun t ht => ?_⟩
    obtain rfl := Except.ok.inj ht
    rw [hfound] at habsent
    simpa using habsent
  refine wp_before_bind (quiet_request rfl) hx₁ ?_ fun e x' hx' => ⟨hx', nofun⟩
  rintro symlink ⟨s₂, ms₂⟩ hx₂ -
  split
  · exact ⟨hx₂, nofun⟩
  refine wp_bind logic (wp_hidden hx₂ (Call.hidden_of_quiet rfl) rfl) ?_
    fun e x' he => ⟨he.1.2, nofun⟩
  rintro target ⟨s₃, ms₃⟩ ⟨hx₃, he₃⟩
  have htarget : start = some (.link target) := (hlstat hx₂).symm.trans (effect_readlink he₃)
  split
  · exact ⟨hx₃, nofun⟩
  refine wp_before_bind (quiet_request rfl) hx₃ (fun directoryLink x₄ hx₄ _ => ?_)
    fun e x' hx' => ⟨hx', nofun⟩
  split
  · exact ⟨hx₄, nofun⟩
  refine wp_before_bind (quiet_refuseSymlink target .fullchain) hx₄ (fun _ x₅ hx₅ _ => ?_)
    fun e x' hx' => ⟨hx', nofun⟩
  refine wp_before_bind (quiet_refuseSymlink target .privkey) hx₅ (fun _ x₆ hx₆ _ => ?_)
    fun e x' hx' => ⟨hx', nofun⟩
  refine ⟨hx₆, fun t ht => ?_⟩
  obtain rfl := Except.ok.inj ht
  exact htarget

/-- A pair that passes validation in a plain directory is what the directory holds. -/
theorem wp_validatePair {n : Name} (hx : On start .before (s, ms)) (hplain : s.IsPlain n) :
    wp logic (validatePair [n, PairFile.fullchain.name] [n, PairFile.privkey.name])
      (fun r x' => On start .before x' ∧ (r = .ok () → x'.1.Holds n)) (s, ms) := by
  refine wp_tryCatch logic (wp_hidden hx (Call.hidden_of_quiet rfl) rfl) ?_ ?_
  · rintro u x' ⟨hx', he⟩
    exact ⟨hx', fun _ => effect_loadCertChain hplain he⟩
  · rintro e x' ⟨hx', -⟩
    split
    · exact ⟨hx'.2, nofun⟩
    · exact ⟨hx'.2, nofun⟩

/-- The rename that makes the version. -/
theorem wp_replaceStaging {staging version : Name} (hx : On start .before (s, ms))
    (hholds : s.Holds staging) (hstaging : IsHidden staging) (hversion : IsVersion version) :
    wp logic (request (.replace [staging] [version]))
      (fun r x' => On start .before x' ∧
        (r = .ok () → s.tree.node [version] = none ∧ x'.1.tree.node [version] ≠ none)) (s, ms) := by
  have hpublish {r : api.Settled Unit} {s' : Tls}
      (he : effect s (.replace [staging] [version]) r s') :=
    effect_publish he hx.consistent hholds hstaging hversion
  have hentitled : Entitled (.replace [staging] [version]) s :=
    ⟨hx.consistent, fun r s' he => ⟨(hpublish he).2.1, fun h => absurd (hpublish he).2.2.1 h⟩⟩
  refine wp_request hentitled fun r s' he => ?_
  obtain ⟨hs, hkept, hnow, hnew⟩ := hpublish he
  have hon := hx.still (c := .replace [staging] [version]) (r := r) hs hkept hnow
  exact ⟨by simpa [Stage.struck] using hon, hnew⟩

/-- Nothing is switched to before it has been checked, and what is switched to is a
new version. -/
theorem wp_publishStaging {staging version : Name} {certData keyData : Bytes}
    (hx : On start .before (s, ms)) (hplain : s.IsPlain staging) (hstaging : IsHidden staging)
    (hversion : IsVersion version) :
    wp logic (publishStaging staging version certData keyData) (Switching start .before)
      (s, ms) := by
  refine wp_inside_bind (within_request trivial) hstaging hx hplain ?_ fun e x' hx' => .inl hx'
  rintro - x₁ hx₁ hplain₁
  refine wp_inside_bind (inside_atomicWrite staging _ certData) hstaging hx₁ hplain₁ ?_
    fun e x' hx' => .inl hx'
  rintro - x₂ hx₂ hplain₂
  refine wp_inside_bind (inside_atomicWrite staging _ keyData) hstaging hx₂ hplain₂ ?_
    fun e x' hx' => .inl hx'
  rintro - ⟨s₃, ms₃⟩ hx₃ hplain₃
  refine wp_bind logic (wp_validatePair hx₃ hplain₃) ?_ fun e x' hx' => .inl hx'.1
  rintro ⟨⟩ ⟨s₄, ms₄⟩ ⟨hx₄, hholds⟩
  refine wp_bind logic (wp_replaceStaging hx₄ (hholds rfl) hstaging hversion) ?_
    fun e x' hx' => .inl hx'.1
  rintro ⟨⟩ ⟨s₅, ms₅⟩ ⟨hx₅, hnew⟩
  obtain ⟨hfree, hnode⟩ := hnew rfl
  refine wp_before_bind (quiet_fsyncDirectory []) hx₅ ?_ fun e x' hx' => .inl hx'
  rintro - ⟨s₆, ms₆⟩ hx₆ htree
  refine wp_switchToVersion hx₆ hversion ?_ (.inl ⟨rfl, fun hstart => ?_⟩)
  · rwa [htree]
  · exact (hx₄.previous version hstart).2 hfree

/-- What `publish_certificate` leaves. -/
def Published (start : Option (Node Name Bytes)) (r : api.Settled (Option Name))
    (x : Tls × History) : Prop :=
  match r with
  | .ok none => On start .before x ∨ On start .calm x ∧ start = none
  | .ok (some v) => On start .calm x ∧ start = some (.link v)
  | .error _ => On start .before x ∨ On start .upset x

theorem wp_publishCertificate (hx : On start .before x) :
    wp logic publishCertificate (Published start) x := by
  refine wp_before_bind quiet_lineageIsComplete hx (fun complete x₁ hx₁ _ => ?_)
    fun e x' hx' => .inl hx'
  split
  · exact .inl hx₁
  refine wp_before_bind (quiet_request rfl) hx₁ (fun certData x₂ hx₂ _ => ?_)
    fun e x' hx' => .inl hx'
  refine wp_before_bind (quiet_request rfl) hx₂ (fun keyData x₃ hx₃ _ => ?_)
    fun e x' hx' => .inl hx'
  obtain ⟨s₃, ms₃⟩ := x₃
  refine wp_bind logic (wp_currentTarget hx₃) ?_ fun e x' hx' => .inl hx'.1
  rintro previous x₄ ⟨hx₄, hprevious⟩
  have hstart : start = previous.map .link := hprevious previous rfl
  refine wp_before_bind (quiet_matchingPublishedPair certData keyData) hx₄
    (fun published x₅ hx₅ _ => ?_) fun e x' hx' => .inl hx'
  split
  · exact .inl hx₅
  refine wp_before_bind (quiet_request rfl) hx₅ (fun token x₆ hx₆ _ => ?_) fun e x' hx' => .inl hx'
  obtain ⟨s₆, ms₆⟩ := x₆
  have hstaging := isHidden_staging token
  have hmkdir : (Call.mkdir [".staging-".toList ++ token] 0o750).Hidden s₆ :=
    fun q hq => by
      obtain ⟨rest, rfl⟩ := hq
      exact ⟨_, rest, rfl, hstaging⟩
  refine wp_bind logic (wp_hidden hx₆ hmkdir rfl) ?_ fun e x' hx' => .inl hx'.1.2
  rintro u ⟨s₇, ms₇⟩ ⟨hx₇, he₇⟩
  refine wp_bind logic (wp_finallyDo_switching
    (wp_publishStaging hx₇ (effect_mkdir he₇) hstaging ⟨token, rfl⟩)
    fun st => strict_removeStaging hstaging) (fun u x' hx' => ?_) fun e x' hx' => hx'
  cases previous with
  | none => exact .inr ⟨hx', hstart⟩
  | some v => exact ⟨hx', hstart⟩

/-! ## Child processes -/

theorem keeps_quiet {c : Call} (hc : c.quiet = true) (hset : c.isSetUp = false) :
    Keeps start st (request c) :=
  (strict_quiet hc hset).keeps

theorem keeps_pure (a : α) : Keeps start st (pure a : Py α) := (strict_pure a).keeps

theorem keeps_awaitChild (child : Child) (deadline : Int) :
    Keeps start st (awaitChild child deadline) := by
  refine Keeps.bind (keeps_quiet rfl rfl) fun status => ?_
  cases status with
  | some result =>
      simp only
      split
      · exact keeps_throw rfl
      · exact keeps_pure _
  | none =>
      refine Keeps.bind (keeps_quiet rfl rfl) fun stopping => ?_
      split
      · exact keeps_throw rfl
      refine Keeps.bind (keeps_quiet rfl rfl) fun now => ?_
      split
      · exact keeps_throw rfl
      refine Keeps.bind (keeps_quiet rfl rfl) fun now => ?_
      exact Keeps.bind (keeps_quiet rfl rfl) fun _ => keeps_pure _

theorem keeps_endChild (child : Child) : Keeps start st (endChild child) := by
  refine Keeps.bind (keeps_quiet rfl rfl) fun status => ?_
  split
  · refine Keeps.bind (keeps_quiet rfl rfl) fun _ => ?_
    refine Keeps.bind (keeps_quiet rfl rfl) fun ended => ?_
    split
    · exact Keeps.bind (keeps_quiet rfl rfl) fun _ => keeps_quiet rfl rfl
    · exact keeps_pure _
  · exact keeps_pure _

theorem keeps_runExternal (patience : Patience) (child : Child) (timeout : Int) :
    Keeps start st (runExternal patience child timeout) := by
  refine Keeps.bind (keeps_quiet rfl rfl) fun _ => ?_
  refine Keeps.bind (keeps_quiet rfl rfl) fun now => ?_
  refine Keeps.tryCatch (keeps_whileTrue (keeps_awaitChild child _)) (fun e he => ?_)
    fun e he => ?_
  · simp only [he, if_true]
    exact Keeps.bind (keeps_endChild child) fun _ => keeps_throw he
  · simp [he]

theorem keeps_tryHealthcheck (patience : Patience) (timeout : Nat) (deadline : Int) :
    Keeps start st (tryHealthcheck patience timeout deadline) := by
  refine Keeps.bind (keeps_quiet rfl rfl) fun stopping => ?_
  split
  · exact keeps_throw rfl
  refine Keeps.tryCatch ?_ (fun e he => ?_) fun e he => ?_
  · refine Keeps.bind (keeps_quiet rfl rfl) fun now => ?_
    exact Keeps.bind (keeps_runExternal patience .healthcheck _) fun _ => keeps_pure _
  · cases e with
    | managerError message =>
        refine Keeps.bind (keeps_quiet rfl rfl) fun now => ?_
        split
        · exact keeps_throw rfl
        refine Keeps.bind (keeps_quiet rfl rfl) fun now => ?_
        exact Keeps.bind (keeps_quiet rfl rfl) fun _ => keeps_pure _
    | stopRequested => exact keeps_throw rfl
    | osError | fileNotFound | sslError | valueError => cases he
  · cases e with
    | managerError message => cases he
    | _ => rfl

theorem keeps_runHealthcheck (patience : Patience) (timeout : Nat) :
    Keeps start st (runHealthcheck patience timeout) :=
  Keeps.bind (keeps_quiet rfl rfl) fun _ => keeps_whileTrue (keeps_tryHealthcheck patience timeout _)

/-! ## The cycle -/

theorem Stage.before_result {r : api.Settled α} : Stage.before.result r = .before := by
  cases r with
  | ok a => rfl
  | error e => simp [result, struck]

/-- Before `current` has moved it does not matter what raises. -/
theorem Keeps.wp_bind_before {β : Type} {p : Py α} {f : α → Py β}
    {Q : api.Settled β → Tls × History → Prop} (hp : Keeps start .before p)
    (hx : On start .before x) (hok : ∀ a x', On start .before x' → wp logic (f a) Q x')
    (herr : ∀ e x', On start .before x' → Q (.error e) x') : wp logic (p >>= f) Q x :=
  wp_bind logic (hp x hx) (fun a x' hx' => hok a x' (Stage.before_result ▸ hx'))
    fun e x' hx' => herr e x' (Stage.before_result ▸ hx')

theorem keeps_runCertbot (patience : Patience) : Keeps start .before (runCertbot patience) := by
  have hlineage {x : Tls × History} (hx : On start .before x) :
      wp logic lineageIsComplete (fun r x' => On start (Stage.before.result r) x') x := by
    refine wp_mono logic (wp_before quiet_lineageIsComplete hx) fun r x' hx' => ?_
    rw [Stage.before_result]
    exact hx'.1
  refine Keeps.bind (fun x hx => hlineage hx) fun complete => ?_
  refine Keeps.tryCatch ?_ (fun e he => ?_) fun e he => ?_
  · exact Keeps.bind (keeps_runExternal patience _ _) fun _ => keeps_pure _
  · cases e with
    | managerError message =>
        refine Keeps.bind (fun x hx => hlineage hx) fun complete => ?_
        split
        · exact keeps_pure _
        · exact keeps_throw rfl
    | stopRequested => exact keeps_throw rfl
    | osError | fileNotFound | sslError | valueError => cases he
  · cases e with
    | managerError message => cases he
    | _ => rfl

/-- What `renewAndPublish` leaves: the name returned is that of the version before. -/
def Renewed (start : Option (Node Name Bytes)) (r : api.Settled (Option Raised × Option Name))
    (x : Tls × History) : Prop :=
  Published start (Prod.snd <$> r) x

theorem wp_renewAndPublish (patience : Patience) (hx : On start .before x) :
    wp logic (renewAndPublish patience) (Renewed start) x := by
  have hquiet (part : SetUp) := quiet_request (c := .setUp part) rfl
  refine wp_before_bind (hquiet _) hx (fun _ x₁ hx₁ _ => ?_) fun e x' hx' => .inl hx'
  refine wp_before_bind (hquiet _) hx₁ (fun _ x₂ hx₂ _ => ?_) fun e x' hx' => .inl hx'
  refine wp_before_bind (hquiet _) hx₂ (fun _ x₃ hx₃ _ => ?_) fun e x' hx' => .inl hx'
  refine wp_before_bind (hquiet _) hx₃ (fun _ x₄ hx₄ _ => ?_) fun e x' hx' => .inl hx'
  refine wp_before_bind (hquiet _) hx₄ (fun _ x₅ hx₅ _ => ?_) fun e x' hx' => .inl hx'
  refine (keeps_runCertbot patience).wp_bind_before hx₅ (fun failure x₆ hx₆ => ?_)
    fun e x' hx' => .inl hx'
  exact wp_bind logic (wp_publishCertificate hx₆) (fun previous x' hx' => hx') fun e x' hx' => hx'

/-- Where the health check has left a cycle when it raised `e`. -/
def Failed (start : Option (Node Name Bytes)) (previous : Option Name) (e : Raised)
    (x : Tls × History) : Prop :=
  On start .before x ∧ previous = none ∨
    On start (Stage.calm.result (.error e : api.Settled Unit)) x ∧ start = previous.map .link

theorem wp_check (patience : Patience) {previous : Option Name}
    (hx : Published start (.ok previous) x) :
    wp logic (runHealthcheck patience 120) (fun r x' => match r with
      | .ok _ => ∃ st, On start st x'
      | .error e => Failed start previous e x') x := by
  have hkept {st : Stage} (hx : On start st x)
      (hraised : ∀ e x', On start (st.result (.error e : api.Settled Unit)) x' →
        Failed start previous e x') :
      wp logic (runHealthcheck patience 120) (fun r x' => match r with
        | .ok _ => ∃ st, On start st x'
        | .error e => Failed start previous e x') x := by
    refine wp_mono logic (keeps_runHealthcheck patience 120 x hx) fun r x' hx' => ?_
    cases r with
    | ok u => exact ⟨_, hx'⟩
    | error e => exact hraised e x' hx'
  cases previous with
  | some v => exact hkept hx.1 fun e x' hx' => .inr ⟨hx', hx.2⟩
  | none =>
      obtain hx | ⟨hx, hstart⟩ := hx
      · exact hkept hx fun e x' hx' => .inl ⟨Stage.before_result ▸ hx', rfl⟩
      · exact hkept hx fun e x' hx' => .inr ⟨hx', hstart⟩

/-- A check that fails by itself is followed by the switch back. -/
theorem wp_rollBack {previous : Option Name} {e : Raised} (hx : Failed start previous e x) :
    wp logic (rollBack previous e) (fun _ x' => ∃ st, On start st x' ∧ (start ≠ none → st ≠ .calm))
      x := by
  cases he : e.isOwn with
  | false =>
      have hthrow : rollBack previous e = throw e := by simp [rollBack, he]
      rw [hthrow]
      obtain ⟨hx, -⟩ | ⟨hx, -⟩ := hx
      · exact ⟨.before, hx, (by rintro _ ⟨⟩)⟩
      · exact ⟨.upset, by simpa [Stage.result, he, Stage.struck] using hx, (by rintro _ ⟨⟩)⟩
  | true =>
      have hcalm : Stage.calm.result (.error e : api.Settled Unit) = .calm := by
        simp [Stage.result, he]
      rw [Failed, hcalm] at hx
      cases previous with
      | none =>
          have hthrow : rollBack none e = throw e := by simp [rollBack, he]
          rw [hthrow]
          obtain ⟨hx, -⟩ | ⟨hx, hstart⟩ := hx
          · exact ⟨.before, hx, (by rintro _ ⟨⟩)⟩
          · exact ⟨.calm, hx, fun hne => absurd hstart hne⟩
      | some v =>
          have hswitch : rollBack (some v) e = switchToVersion v >>= fun _ => throw e := by
            simp [rollBack, he]
          rw [hswitch]
          obtain ⟨-, hnone⟩ | ⟨hx, hstart⟩ := hx
          · cases hnone
          obtain ⟨s, ms⟩ := x
          obtain ⟨hversion, hnode⟩ := hx.previous v hstart
          refine wp_bind logic (wp_switchToVersion hx hversion hnode (.inr ⟨rfl, hstart⟩)) ?_ ?_
          · exact fun u x' hx' => ⟨.restored, hx', (by rintro _ ⟨⟩)⟩
          · rintro e' x' (hx' | hx')
            · exact ⟨.upset, hx', (by rintro _ ⟨⟩)⟩
            · exact ⟨.restored, hx', (by rintro _ ⟨⟩)⟩

/-- The health check and what follows it. -/
theorem wp_verify {patience : Patience} {failure : Option Raised} {previous : Option Name}
    (hx : Published start (.ok previous) x) :
    wp logic
      (do
        tryCatch (runHealthcheck patience 120) (rollBack previous)
        match failure with
        | some e => throw e
        | none => pure ())
      (fun _ x' => ∃ st, On start st x') x := by
  refine wp_bind logic (M := fun _ x' => ∃ st, On start st x') ?_ (fun u x' hx' => ?_)
    fun e x' hx' => hx'
  · refine wp_tryCatch logic (wp_check patience hx) (fun u x' hx' => hx') fun e x' hx' => ?_
    exact wp_mono logic (wp_rollBack hx') fun r x'' ⟨st, hst, _⟩ => ⟨st, hst⟩
  · cases failure with
    | none => exact hx'
    | some e => exact hx'

theorem wp_runCycle (patience : Patience) (hx : On start .before x) :
    wp logic (runCycle patience) (fun _ x' => ∃ st, On start st x') x := by
  refine wp_bind logic (wp_renewAndPublish patience hx) ?_ ?_
  · rintro ⟨failure, previous⟩ x' hx'
    exact wp_verify hx'
  · rintro e x' (hx' | hx')
    · exact ⟨_, hx'⟩
    · exact ⟨_, hx'⟩

end

/-! ## Whole runs -/

/-- The directory, and the cycle that is running. -/
structure World where
  tls : Tls
  process : Option (Py Unit)

def World.initial : World := ⟨.empty, none⟩

/-- A cycle starts, makes some calls, ends or is killed. -/
inductive Act where
  | start (patience : Patience)
  | calls (ms : History)
  | finish
  | kill

/-- The act has called for `current` to be replaced. -/
def Act.Replaces : Act → Prop
  | .calls ms => ∃ m ∈ ms, ∃ link, m.call = .replace link [current]
  | _ => False

inductive Step : World → Act → World → Prop where
  | start {tls : Tls} (patience : Patience) :
      Step ⟨tls, none⟩ (.start patience) ⟨tls, some (runCycle patience)⟩
  | calls {tls tls' : Tls} {p p' : Py Unit} {ms : History} (path : Path effect p tls ms p' tls') :
      Step ⟨tls, some p⟩ (.calls ms) ⟨tls', some p'⟩
  | finish {tls : Tls} {r : api.Settled Unit} : Step ⟨tls, some (.done r)⟩ .finish ⟨tls, none⟩
  | kill {tls : Tls} {p : Py Unit} : Step ⟨tls, some p⟩ .kill ⟨tls, none⟩

inductive Runs (w : World) : List Act → World → Prop where
  | nil : Runs w [] w
  | snoc {acts : List Act} {a : Act} {u v : World} (before : Runs w acts u) (last : Step u a v) :
      Runs w (acts ++ [a]) v

/-- `w` is a state of some run from the empty directory. -/
def World.Reached (w : World) : Prop := ∃ acts, Runs .initial acts w

/-- The running cycle is one that was started, so far. -/
structure World.Sound (w : World) : Prop where
  consistent : w.tls.Consistent
  cycle : ∀ p, w.process = some p → ∃ start ms,
    wp logic p (fun _ x => ∃ st, On start st x) (w.tls, ms)

section

variable {α : Type} {start : Option (Node Name Bytes)} {p p' : Py α} {s s' : Tls}
  {ms earlier : History}

/-- A cycle that can be stopped anywhere is stopped in a consistent state. -/
theorem consistent_of_wp (h : wp logic p (fun _ x => ∃ st, On start st x) (s, earlier)) :
    s.Consistent := by
  induction p with
  | done r =>
      obtain ⟨st, hx⟩ := h
      exact hx.consistent
  | read k ih => exact ih () (h () _ rfl)
  | write w k ih => exact w.elim
  | call c k ih => exact h.1.1

/-- Calls that the cycle is entitled to, one after the other. -/
theorem entitled_path (h : Path effect p s ms p' s')
    (hp : wp logic p (fun _ x => ∃ st, On start st x) (s, earlier)) :
    s.Kept s' ∧ (¬(Act.calls ms).Replaces → s'.now = s.now) ∧
      ∃ later, wp logic p' (fun _ x => ∃ st, On start st x) (s', later) := by
  induction h generalizing earlier with
  | nil => exact ⟨.refl, fun _ => rfl, earlier, hp⟩
  | read v _ ih => exact ih (hp v _ rfl)
  | write _ ih => exact ih hp.2
  | @call c k s t s' r ms p answer _ ih =>
      obtain ⟨hkept, hnow⟩ := hp.1.2 r t answer
      obtain ⟨hrest, hstill, hlater⟩ := ih (hp.2 r _ (Logic.replies_recorded.2 ⟨t, answer, rfl⟩))
      refine ⟨hkept.trans hrest, fun hno => ?_, hlater⟩
      rw [hstill fun ⟨m, hm, hcall⟩ => hno ⟨m, List.mem_cons_of_mem _ hm, hcall⟩]
      by_contra hne
      exact hno ⟨_, List.mem_cons_self .., hnow hne⟩

end

theorem World.sound_initial : World.initial.Sound :=
  ⟨Tls.consistent_empty, nofun⟩

/-- One act keeps the versions, and `current` unless it replaces it. -/
theorem Step.sound {w w' : World} {a : Act} (h : Step w a w') (hw : w.Sound) :
    w'.Sound ∧ w.tls.Kept w'.tls ∧ (¬a.Replaces → w'.tls.now = w.tls.now) := by
  obtain ⟨hs, hcycle⟩ := hw
  cases h with
  | start patience =>
      refine ⟨⟨hs, fun p hp => ?_⟩, .refl, fun _ => rfl⟩
      obtain rfl := Option.some.inj hp
      exact ⟨_, [], wp_runCycle patience hs.on⟩
  | calls path =>
      obtain ⟨start, earlier, hp⟩ := hcycle _ rfl
      obtain ⟨hkept, hnow, later, hp'⟩ := entitled_path path hp
      refine ⟨⟨consistent_of_wp hp', fun p hp => ?_⟩, hkept, hnow⟩
      obtain rfl := Option.some.inj hp
      exact ⟨start, later, hp'⟩
  | finish => exact ⟨⟨hs, nofun⟩, .refl, fun _ => rfl⟩
  | kill => exact ⟨⟨hs, nofun⟩, .refl, fun _ => rfl⟩

theorem Runs.sound {w w' : World} {acts : List Act} (h : Runs w acts w') (hw : w.Sound) :
    w'.Sound ∧ w.tls.Kept w'.tls ∧
      ((∀ a ∈ acts, ¬a.Replaces) → w'.tls.now = w.tls.now) := by
  induction h with
  | nil => exact ⟨hw, .refl, fun _ => rfl⟩
  | snoc _ last ih =>
      obtain ⟨hu, hkept, hnow⟩ := ih
      obtain ⟨hv, hkept', hnow'⟩ := last.sound hu
      refine ⟨hv, hkept.trans hkept', fun hno => ?_⟩
      simp only [List.mem_append, List.mem_singleton] at hno
      rw [hnow' (hno _ (.inr rfl)), hnow fun a ha => hno a (.inl ha)]

theorem World.Reached.sound {w : World} (h : w.Reached) : w.Sound := by
  obtain ⟨acts, hruns⟩ := h
  exact (hruns.sound World.sound_initial).1

/-- Publication survives a crash: at every moment of every run, `current` is absent
or names a version directory whose two files were accepted together as they stand;
from then on nothing in that directory changes; and `current` itself changes only
when it is replaced. -/
theorem crash_consistent {w : World} (h : w.Reached) :
    (w.tls.now = none ∨ ∃ v, IsVersion v ∧ w.tls.now = some (.link v) ∧ w.tls.Holds v) ∧
      (∀ v acts w', w.tls.now = some (.link v) → Runs w acts w' →
        w.tls.tree.SameAt w'.tls.tree [v]) ∧
      ∀ acts w', Runs w acts w' → (∀ a ∈ acts, ¬a.Replaces) → w'.tls.now = w.tls.now := by
  have hsound := h.sound
  have hnamed {v : Name} (hv : w.tls.now = some (.link v)) :
      IsVersion v ∧ w.tls.tree.node [v] ≠ none := hsound.consistent.on.previous v hv
  refine ⟨?_, fun v acts w' hv hruns => ?_, fun acts w' hruns => (hruns.sound hsound).2.2⟩
  · refine hsound.consistent.current.imp_right fun ⟨v, hversion, hv, hnode⟩ => ?_
    exact ⟨v, hversion, hv, hsound.consistent.versions v hversion hnode⟩
  · obtain ⟨hversion, hnode⟩ := hnamed hv
    exact (hruns.sound hsound).2.1 v hversion hnode

/-- A cycle that runs to its end leaves a directory that is reached. -/
theorem World.Reached.cycle {s s' : Tls} {ms : History} {r : api.Settled Unit}
    {patience : Patience} (h : World.Reached ⟨s, none⟩)
    (hpath : Path effect (runCycle patience) s ms (.done r) s') : World.Reached ⟨s', none⟩ := by
  obtain ⟨acts, hruns⟩ := h
  exact ⟨_, ((hruns.snoc (.start patience)).snoc (.calls hpath)).snoc .finish⟩

def sampleVersion (digit : Char) : Name := "version-".toList ++ List.replicate 24 digit

/-- The first cycle, in the environment where nothing goes wrong. -/
def sampleCycle : Option (History × api.Settled Unit × Tls) :=
  play (sampleWorld 'a' [1] [2] fun _ _ => false) (runCycle ⟨1, 1⟩) .empty

theorem sampleCycle_publishes :
    sampleCycle.map (fun x => x.2.2.now) = some (some (.link (sampleVersion 'a'))) := by
  decide +kernel

theorem reached_sample :
    ∃ s, World.Reached ⟨s, none⟩ ∧ s.now = some (.link (sampleVersion 'a')) := by
  obtain ⟨⟨ms, r, s⟩, hplay, hnow⟩ := Option.map_eq_some_iff.1 sampleCycle_publishes
  have hpath : Path effect _ _ _ _ _ := Path.of_play (fun _ _ _ _ => sampleWorld_effect) hplay
  exact ⟨s, .cycle ⟨[], .nil⟩ hpath, hnow⟩

theorem crash_consistent_sample :
    ∃ w : World, w.Reached ∧ w.tls.now = some (.link (sampleVersion 'a')) ∧
      w.tls.Holds (sampleVersion 'a') := by
  obtain ⟨s, hs, hnow⟩ := reached_sample
  obtain hnone | ⟨v, -, hv, hholds⟩ := (crash_consistent hs).1
  · cases hnone.symm.trans hnow
  · obtain rfl : v = sampleVersion 'a' := by simpa using hv.symm.trans hnow
    exact ⟨⟨s, none⟩, hs, hnow, hholds⟩

end BrowserVpn.Manager
