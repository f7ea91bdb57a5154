import BrowserVpn.Deploy.Publication

/-!
# Deploy.Versions — what the calls leave alone

A call changes the tree at and below the paths it names and nowhere else. The
names that the cycle works with begin with a dot, those of the published versions
with `version-`, so that only two renames can touch what is published: the one that
makes a version directory and the one that replaces `current`.
-/

namespace BrowserVpn.Manager

open Async Data

/-! ## Frames -/

/-- `q` is at or below a path that the call may change. -/
def Call.touches (s : Tls) : Call → Place → Prop
  | .mkdir p _, q | .symlinkTo p _, q | .unlink p, q | .rmtree p, q | .write p _, q =>
      s.tree.real p <+: q
  | .replace source target, q => s.tree.real source <+: q ∨ s.tree.real target <+: q
  | .mkstemp start directory, q =>
      ∃ temporary, start <+: temporary ∧ s.tree.real (directory ++ [temporary]) <+: q
  | _, _ => False

/-- The call changes no tree. -/
def Call.quiet : Call → Bool
  | .mkdir .. | .symlinkTo .. | .unlink _ | .rmtree _ | .write .. | .replace .. | .mkstemp .. =>
      false
  | _ => true

section

variable {s s' : Tls} {c : Call} {q : Place}

theorem Tls.create_eq_some {p : Place} {node : Node Name Bytes} (h : s.create p node = some s') :
    s.tree.hasParent (s.tree.real p) = true ∧ s.tree.node (s.tree.real p) = none ∧
      s' = s.setTree ((s.tree.prune (s.tree.real p) fun _ => false).put (s.tree.real p) node) := by
  rw [create] at h
  split at h
  · rename_i hfree
    exact ⟨hfree.1, hfree.2, (Option.some.inj h).symm⟩
  · cases h

theorem Tls.create_frame {p : Place} {node : Node Name Bytes} (h : s.create p node = some s')
    (hq : ¬s.tree.real p <+: q) : s'.tree.node q = s.tree.node q := by
  obtain ⟨_, _, rfl⟩ := create_eq_some h
  have hne : q ≠ s.tree.real p := fun he => hq (he ▸ List.prefix_rfl)
  exact (Tree.put_other hne).trans (Tree.prune_other hq)

theorem Tls.perform_frame {a : c.Reply} (h : s.perform c a = some s') (hq : ¬c.touches s q) :
    s'.tree.node q = s.tree.node q := by
  cases c with
  | mkdir p => exact create_frame h hq
  | symlinkTo p target => exact create_frame h hq
  | mkstemp start directory =>
      simp only [perform] at h
      split at h
      · rename_i hstart
        exact create_frame h fun hp => hq ⟨a, hstart, hp⟩
      · cases h
  | replace source target =>
      simp only [perform] at h
      split at h
      · obtain rfl := Option.some.inj h
        exact Tree.rename_other (fun hp => hq (.inl hp)) fun hp => hq (.inr hp)
      · cases h
  | unlink p =>
      simp only [perform] at h
      split at h
      · cases h
      · cases h
      · obtain rfl := Option.some.inj h
        exact Tree.prune_other hq
  | rmtree p =>
      simp only [perform] at h
      split at h
      · obtain rfl := Option.some.inj h
        exact Tree.prune_other hq
      · cases h
  | write p data =>
      simp only [perform] at h
      split at h
      · obtain rfl := Option.some.inj h
        exact Tree.put_other fun he => hq (he ▸ List.prefix_rfl)
      · cases h
  | loadCertChain certificate privateKey =>
      simp only [perform] at h
      split at h
      · obtain rfl := Option.some.inj h
        rfl
      · cases h
  | unfinished => cases h
  | lexists | pathExists | isSymlink | readlink | readBytes | tokenHex =>
      simp only [perform] at h
      split at h
      · obtain rfl := Option.some.inj h
        rfl
      · cases h
  | setUp | lineageIsFile | readLineage | popen | poll | terminate | kill | wait | waitAtMost
  | monotonic | stopIsSet | stopWait | chown | fdopen | fchown | fchmod | fsync | close
  | openDirectory =>
      obtain rfl := Option.some.inj h
      rfl

theorem Tls.torn_frame (h : s.torn c s') (hq : ¬c.touches s q) :
    s'.tree.node q = s.tree.node q := by
  cases c with
  | write p data =>
      obtain ⟨old, part, -, rfl⟩ := h
      exact Tree.put_other fun he => hq (he ▸ List.prefix_rfl)
  | rmtree p =>
      obtain ⟨keep, rfl⟩ := h
      exact Tree.prune_other hq
  | _ => exact h.elim

/-- However a call ends, it did nothing, all of it or part of it. -/
theorem effect_change {r : api.Settled c.Reply} (h : effect s c r s') :
    s' = s ∨ (∃ a, s.perform c a = some s') ∨ s.torn c s' := by
  cases r with
  | ok a => exact .inr (.inl ⟨a, h⟩)
  | error e => exact h.2.2

/-- A call changes nothing but what it touches. -/
theorem effect_frame {r : api.Settled c.Reply} (h : effect s c r s') (hq : ¬c.touches s q) :
    s'.tree.node q = s.tree.node q := by
  obtain rfl | ⟨a, ha⟩ | ht := effect_change h
  · rfl
  · exact Tls.perform_frame ha hq
  · exact Tls.torn_frame ht hq

theorem Call.not_touches_of_quiet (h : c.quiet) : ¬c.touches s q := by
  cases c <;> first | exact id | cases h

theorem effect_quiet {r : api.Settled c.Reply} (h : effect s c r s') (hc : c.quiet) :
    s'.tree.node = s.tree.node :=
  funext fun _ => effect_frame h (Call.not_touches_of_quiet hc)

/-- What has been accepted stays so. -/
theorem effect_accepted {r : api.Settled c.Reply} (h : effect s c r s') :
    s.accepted ⊆ s'.accepted := by
  cases r with
  | error e => exact h.2.1 ▸ List.Subset.refl _
  | ok a =>
      replace h : s.perform c a = some s' := h
      cases c with
      | loadCertChain certificate privateKey =>
          simp only [Tls.perform] at h
          split at h
          · obtain rfl := Option.some.inj h
            exact List.subset_cons_self ..
          · cases h
      | mkdir p => obtain ⟨-, -, rfl⟩ := Tls.create_eq_some h; exact List.Subset.refl _
      | symlinkTo p target => obtain ⟨-, -, rfl⟩ := Tls.create_eq_some h; exact List.Subset.refl _
      | mkstemp start directory =>
          simp only [Tls.perform] at h
          split at h
          · obtain ⟨-, -, rfl⟩ := Tls.create_eq_some h
            exact List.Subset.refl _
          · cases h
      | unfinished => cases h
      | unlink | write =>
          simp only [Tls.perform] at h
          split at h
          all_goals first | cases h; done | (obtain rfl := Option.some.inj h; exact List.Subset.refl _)
      | lexists | pathExists | isSymlink | readlink | readBytes | tokenHex | replace | rmtree =>
          simp only [Tls.perform] at h
          split at h
          · obtain rfl := Option.some.inj h
            exact List.Subset.refl _
          · cases h
      | _ =>
          obtain rfl := Option.some.inj h
          exact List.Subset.refl _

end

/-! ## What is published -/

def IsVersion (n : Name) : Prop := "version-".toList <+: n

def IsHidden (n : Name) : Prop := n.head? = some '.'

theorem IsVersion.not_hidden {v : Name} (h : IsVersion v) : ¬IsHidden v := by
  obtain ⟨token, rfl⟩ := h
  simp [IsHidden]

theorem current_not_hidden : ¬IsHidden current := by
  intro h
  have hhead : some 'c' = some '.' := h
  cases hhead

theorem IsVersion.ne_current {v : Name} (h : IsVersion v) : v ≠ current := by
  obtain ⟨token, rfl⟩ := h
  intro he
  have hhead : some 'v' = some 'c' := congrArg List.head? he
  cases hhead

/-- What `tls/current` is. -/
def Tls.now (s : Tls) : Option (Node Name Bytes) := s.tree.node [current]

/-- The directory `n` holds the two files of a pair, as they were when
`validate_pair` accepted them together. -/
structure Tls.Holds (s : Tls) (n : Name) : Prop where
  directory : s.tree.node [n] = some .directory
  pair : ∃ cert key, s.tree.node [n, PairFile.fullchain.name] = some (.file cert) ∧
    s.tree.node [n, PairFile.privkey.name] = some (.file key) ∧ (cert, key) ∈ s.accepted

/-- Every version directory holds an accepted pair, and `current` is absent or
names one of them. -/
structure Tls.Consistent (s : Tls) : Prop where
  versions : ∀ v, IsVersion v → s.tree.node [v] ≠ none → s.Holds v
  current : s.now = none ∨ ∃ v, IsVersion v ∧ s.now = some (.link v) ∧ s.tree.node [v] ≠ none

/-- No version directory of `s` is any different in `s'`. -/
def Tls.Kept (s s' : Tls) : Prop :=
  ∀ v, IsVersion v → s.tree.node [v] ≠ none → s.tree.SameAt s'.tree [v]

/-- The call touches names that begin with a dot only. -/
def Call.Hidden (c : Call) (s : Tls) : Prop :=
  ∀ q, c.touches s q → ∃ n rest, q = n :: rest ∧ IsHidden n

section

variable {s s' u : Tls} {c : Call} {r : api.Settled c.Reply}

theorem Tls.consistent_empty : Tls.empty.Consistent :=
  ⟨fun _ _ h => absurd rfl h, .inl rfl⟩

theorem Tls.Kept.refl : s.Kept s := fun _ _ _ => .refl

theorem Tls.Kept.trans (h : s.Kept s') (h' : s'.Kept u) : s.Kept u := by
  intro v hv hnode
  have hsame := h v hv hnode
  refine hsame.trans (h' v hv ?_)
  rwa [hsame [v] List.prefix_rfl]

theorem Tls.Holds.mono {n : Name} (h : s.Holds n) (hsame : s.tree.SameAt s'.tree [n])
    (hacc : s.accepted ⊆ s'.accepted) : s'.Holds n := by
  obtain ⟨hdir, cert, key, hcert, hkey, hpair⟩ := h
  have hbelow (f : Name) : s'.tree.node [n, f] = s.tree.node [n, f] := hsame _ ⟨[f], rfl⟩
  exact ⟨(hsame [n] List.prefix_rfl).trans hdir, cert, key, (hbelow _).trans hcert,
    (hbelow _).trans hkey, hacc hpair⟩

/-- Neither `current` nor a version directory has changed. -/
theorem Tls.Consistent.of_same (h : s.Consistent)
    (hsame : ∀ v, IsVersion v → s.tree.SameAt s'.tree [v]) (hnow : s'.now = s.now)
    (hacc : s.accepted ⊆ s'.accepted) : s'.Consistent := by
  have hat (v : Name) (hv : IsVersion v) : s'.tree.node [v] = s.tree.node [v] :=
    hsame v hv [v] List.prefix_rfl
  constructor
  · intro v hv hnode
    rw [hat v hv] at hnode
    exact (h.versions v hv hnode).mono (hsame v hv) hacc
  · rw [hnow]
    refine h.current.imp_right fun ⟨v, hv, hlink, hnode⟩ => ⟨v, hv, hlink, ?_⟩
    rwa [hat v hv]

/-! ## The three kinds of calls -/

theorem Call.hidden_of_quiet (h : c.quiet) : c.Hidden s :=
  fun _ hq => absurd hq (not_touches_of_quiet h)

theorem Call.Hidden.frame (hc : c.Hidden s) (h : effect s c r s') {n : Name} (hn : ¬IsHidden n)
    (rest : Place) : s'.tree.node (n :: rest) = s.tree.node (n :: rest) := by
  refine effect_frame h fun hq => ?_
  obtain ⟨m, rest', heq, hm⟩ := hc _ hq
  obtain ⟨rfl, -⟩ := List.cons.inj heq
  exact hn hm

theorem Call.Hidden.sameAt (hc : c.Hidden s) (h : effect s c r s') {n : Name} (hn : ¬IsHidden n) :
    s.tree.SameAt s'.tree [n] := by
  rintro q ⟨rest, rfl⟩
  exact hc.frame h hn rest

theorem Call.Hidden.now (hc : c.Hidden s) (h : effect s c r s') : s'.now = s.now :=
  hc.frame h current_not_hidden []

theorem Call.Hidden.kept (hc : c.Hidden s) (h : effect s c r s') : s.Kept s' :=
  fun _ hv _ => hc.sameAt h hv.not_hidden

theorem Call.Hidden.consistent (hc : c.Hidden s) (h : effect s c r s') (hs : s.Consistent) :
    s'.Consistent :=
  hs.of_same (fun _ hv => hc.sameAt h hv.not_hidden) (hc.now h) (effect_accepted h)

/-- A rename that is atomic leaves things as they were or is complete. -/
theorem effect_replace {p q : Place} {r : api.Settled Unit} (h : effect s (.replace p q) r s') :
    s' = s ∧ r ≠ .ok () ∨
      s.canReplace (s.tree.real p) (s.tree.real q) = true ∧
        s' = s.setTree (s.tree.rename (s.tree.real p) (s.tree.real q)) := by
  have hperform {a : Unit} (ha : s.perform (.replace p q) a = some s') :
      s.canReplace (s.tree.real p) (s.tree.real q) = true ∧
        s' = s.setTree (s.tree.rename (s.tree.real p) (s.tree.real q)) := by
    simp only [Tls.perform] at ha
    split at ha
    · rename_i hcan
      exact ⟨hcan.2, (Option.some.inj ha).symm⟩
    · cases ha
  cases r with
  | ok a => exact .inr (hperform h)
  | error e =>
      obtain rfl | ⟨a, ha⟩ | ht := effect_change h
      · exact .inl ⟨rfl, fun he => by cases he⟩
      · exact .inr (hperform ha)
      · exact ht.elim

/-- The same for two entries of the directory itself. -/
theorem effect_replace_entry {m n : Name} {r : api.Settled Unit}
    (h : effect s (.replace [m] [n]) r s') :
    s' = s ∧ r ≠ .ok () ∨
      s.canReplace [m] [n] = true ∧ s' = s.setTree (s.tree.rename [m] [n]) :=
  effect_replace h

/-- The rename of a checked staging directory makes a version of it. It cannot
replace a version: that directory would not be empty. -/
theorem effect_publish {staging version : Name} {r : api.Settled Unit}
    (h : effect s (.replace [staging] [version]) r s') (hs : s.Consistent) (hstaged : s.Holds staging)
    (hstaging : IsHidden staging) (hversion : IsVersion version) :
    s'.Consistent ∧ s.Kept s' ∧ s'.now = s.now ∧
      (r = .ok () → s.tree.node [version] = none ∧ s'.tree.node [version] ≠ none) := by
  obtain ⟨rfl, hr⟩ | ⟨hcan, rfl⟩ := effect_replace_entry h
  · exact ⟨hs, .refl, rfl, fun h => absurd h hr⟩
  have hfree : s.tree.node [version] = none := by
    by_contra hnode
    obtain ⟨hdir, cert, key, hcert, -⟩ := hs.versions version hversion hnode
    have hfull : s.tree.isEmpty [version] = false :=
      Tree.isEmpty_eq_false (f := PairFile.fullchain.name) (by simp [hcert])
    simp [Tls.canReplace, hstaged.directory, hdir, hfull] at hcan
  have hmoved (rest : Place) :
      (s.tree.rename [staging] [version]).node (version :: rest) = s.tree.node (staging :: rest) :=
    Tree.rename_target rest
  have hother {n : Name} (hn : ¬IsHidden n) (hne : n ≠ version) (rest : Place) :
      (s.tree.rename [staging] [version]).node (n :: rest) = s.tree.node (n :: rest) := by
    refine Tree.rename_other (fun hq => ?_) fun hq => ?_
    · obtain ⟨rfl, -⟩ := List.cons_prefix_cons.1 hq
      exact hn hstaging
    · exact hne (List.cons_prefix_cons.1 hq).1.symm
  have hsame {v : Name} (hv : IsVersion v) (hne : v ≠ version) :
      s.tree.SameAt (s.tree.rename [staging] [version]) [v] := by
    rintro q ⟨rest, rfl⟩
    exact hother hv.not_hidden hne rest
  have hnow : (s.setTree (s.tree.rename [staging] [version])).now = s.now :=
    hother current_not_hidden hversion.ne_current.symm []
  have hnew : (s.tree.rename [staging] [version]).node [version] = some .directory :=
    (hmoved []).trans hstaged.directory
  refine ⟨⟨fun v hv hnode => ?_, ?_⟩, fun v hv hnode => ?_, hnow, fun _ => ⟨hfree, ?_⟩⟩
  · by_cases hne : v = version
    · subst hne
      obtain ⟨-, cert, key, hcert, hkey, hpair⟩ := hstaged
      exact ⟨hnew, cert, key, (hmoved [_]).trans hcert, (hmoved [_]).trans hkey, hpair⟩
    · have hat := hsame hv hne [v] List.prefix_rfl
      exact (hs.versions v hv (hat ▸ hnode)).mono (hsame hv hne) (List.Subset.refl _)
  · rw [hnow]
    refine hs.current.imp_right fun ⟨v, hv, hlink, hnode⟩ => ⟨v, hv, hlink, ?_⟩
    by_cases hne : v = version
    · subst hne
      exact absurd hfree hnode
    · rwa [show (s.setTree (s.tree.rename [staging] [version])).tree.node [v] = _ from
        hsame hv hne [v] List.prefix_rfl]
  · refine hsame hv fun hne => ?_
    subst hne
    exact hnode hfree
  · rw [show (s.setTree (s.tree.rename [staging] [version])).tree.node [version] = _ from hnew]
    simp

/-- The rename of a fresh link over `current` switches to the version it names. -/
theorem effect_switch {link v : Name} {r : api.Settled Unit}
    (h : effect s (.replace [link] [current]) r s') (hs : s.Consistent) (hlink : IsHidden link)
    (hnamed : s.tree.node [link] = some (.link v)) (hv : IsVersion v)
    (hnode : s.tree.node [v] ≠ none) :
    s'.Consistent ∧ s.Kept s' ∧ (∀ w, IsVersion w → s.tree.SameAt s'.tree [w]) ∧
      (s' = s ∧ r ≠ .ok () ∨ s'.now = some (.link v)) := by
  obtain ⟨rfl, hr⟩ | ⟨-, rfl⟩ := effect_replace_entry h
  · exact ⟨hs, .refl, fun _ _ => .refl, .inl ⟨rfl, hr⟩⟩
  have hsame (w : Name) (hw : IsVersion w) :
      s.tree.SameAt (s.tree.rename [link] [current]) [w] := by
    rintro q ⟨rest, rfl⟩
    refine Tree.rename_other (fun hq => ?_) fun hq => ?_
    · obtain ⟨rfl, -⟩ := List.cons_prefix_cons.1 hq
      exact hw.not_hidden hlink
    · exact hw.ne_current (List.cons_prefix_cons.1 hq).1.symm
  have hnow : (s.setTree (s.tree.rename [link] [current])).now = some (.link v) :=
    (Tree.rename_target []).trans hnamed
  have hat (w : Name) (hw : IsVersion w) :
      (s.setTree (s.tree.rename [link] [current])).tree.node [w] = s.tree.node [w] :=
    hsame w hw [w] List.prefix_rfl
  refine ⟨⟨fun w hw hw' => ?_, .inr ⟨v, hv, hnow, ?_⟩⟩, fun w hw _ => hsame w hw, hsame,
    .inr hnow⟩
  · rw [hat w hw] at hw'
    exact (hs.versions w hw hw').mono (hsame w hw) (List.Subset.refl _)
  · rwa [hat v hv]

end

end BrowserVpn.Manager
