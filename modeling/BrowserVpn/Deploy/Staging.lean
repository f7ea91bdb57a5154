import BrowserVpn.Deploy.Versions

/-!
# Deploy.Staging — the staging directory

What is written before it is published is written inside one fresh directory that
holds no links. The calls that write there touch nothing else, and what
`load_cert_chain` accepts there are the two files as they stand.
-/

namespace BrowserVpn.Manager

open Async Data

/-- `n` is a directory, and what stands in it are not links. -/
structure Tls.IsPlain (s : Tls) (n : Name) : Prop where
  directory : s.tree.node [n] = some .directory
  noLinks : ∀ f target, s.tree.node [n, f] ≠ some (.link target)

/-- The call writes inside the directory `n` only. -/
def Call.Inside (n : Name) : Call → Prop
  | .write p _ | .unlink p => ∃ f, p = [n, f]
  | .replace source target => (∃ f, source = [n, f]) ∧ ∃ f, target = [n, f]
  | .mkstemp _ directory => directory = [n]
  | .mkdir .. | .symlinkTo .. | .rmtree _ => False
  | _ => True

section

variable {s s' : Tls} {n : Name} {c : Call}

theorem Tls.IsPlain.real (h : s.IsPlain n) (f : Name) : s.tree.real [n, f] = [n, f] := by
  simp [Tree.real, Tree.through, h.directory]

theorem Tls.IsPlain.lstat (h : s.IsPlain n) (f : Name) :
    s.tree.lstat [n, f] = s.tree.node [n, f] := by
  rw [Tree.lstat, h.real f]
  simp [Tree.hasParent, h.directory]

theorem Tls.IsPlain.contents {f : Name} {data : Bytes} (h : s.IsPlain n)
    (hdata : s.tree.contents [n, f] = some data) :
    s.tree.node [n, f] = some (.file data) := by
  have hlstat := h.lstat f
  rw [Tree.contents, Tree.stat] at hdata
  split at hdata
  · rename_i stored hstat
    split at hstat
    · rename_i target hlink
      exact absurd (hlstat.symm.trans hlink) (h.noLinks f target)
    · obtain rfl := Option.some.inj hdata
      exact hlstat.symm.trans hstat
  · cases hdata

theorem Call.Inside.touches (hc : c.Inside n) (h : s.IsPlain n) {q : Place} (hq : c.touches s q) :
    ∃ f, [n, f] <+: q := by
  cases c with
  | write p data =>
      obtain ⟨f, rfl⟩ := hc
      exact ⟨f, h.real f ▸ hq⟩
  | unlink p =>
      obtain ⟨f, rfl⟩ := hc
      exact ⟨f, h.real f ▸ hq⟩
  | replace source target =>
      obtain ⟨⟨f, rfl⟩, g, rfl⟩ := hc
      rcases hq with hq | hq
      · exact ⟨f, h.real f ▸ hq⟩
      · exact ⟨g, h.real g ▸ hq⟩
  | mkstemp start directory =>
      obtain rfl := hc
      obtain ⟨temporary, -, hq⟩ := hq
      exact ⟨temporary, h.real temporary ▸ hq⟩
  | mkdir | symlinkTo | rmtree => exact hc.elim
  | _ => exact hq.elim

theorem Call.Inside.hidden (hc : c.Inside n) (h : s.IsPlain n) (hn : IsHidden n) : c.Hidden s := by
  intro q hq
  obtain ⟨f, rest, rfl⟩ := hc.touches h hq
  exact ⟨n, f :: rest, rfl, hn⟩

/-- Where a call inside `n` leaves something, it is a file or was there before. -/
theorem Call.Inside.node (hc : c.Inside n) (h : s.IsPlain n) {r : api.Settled c.Reply}
    (he : effect s c r s') (f : Name) :
    s'.tree.node [n, f] = none ∨ (∃ data, s'.tree.node [n, f] = some (.file data)) ∨
      ∃ g, s'.tree.node [n, f] = s.tree.node [n, g] := by
  by_cases hq : c.touches s [n, f]
  swap
  · exact .inr (.inr ⟨f, effect_frame he hq⟩)
  obtain rfl | ⟨a, ha⟩ | ht := effect_change he
  · exact .inr (.inr ⟨f, rfl⟩)
  · cases c with
    | write p data =>
        obtain ⟨g, rfl⟩ := hc
        obtain rfl : g = f := by simpa [Call.touches, h.real] using hq
        simp only [Tls.perform] at ha
        split at ha
        · obtain rfl := Option.some.inj ha
          rw [h.real g]
          exact .inr (.inl ⟨data, Tree.put_same⟩)
        · cases ha
    | unlink p =>
        simp only [Tls.perform] at ha
        split at ha
        · cases ha
        · cases ha
        · obtain rfl := Option.some.inj ha
          exact .inl (if_pos ⟨hq, rfl⟩)
    | replace source target =>
        obtain ⟨⟨g, rfl⟩, k, rfl⟩ := hc
        obtain ⟨rfl, -⟩ | ⟨-, rfl⟩ := effect_replace he
        · exact .inr (.inr ⟨f, rfl⟩)
        rw [h.real g, h.real k]
        by_cases hk : k = f
        · subst hk
          exact .inr (.inr ⟨g, Tree.rename_target (t := s.tree) []⟩)
        · have hg : g = f := by simpa [Call.touches, h.real, hk] using hq
          subst hg
          refine .inl ?_
          simp [Tls.setTree, Tree.rename, hk]
    | mkstemp start directory =>
        obtain rfl := hc
        simp only [Tls.perform] at ha
        split at ha
        swap
        · cases ha
        by_cases hf : a = f
        · subst hf
          obtain ⟨-, -, rfl⟩ := Tls.create_eq_some ha
          rw [List.singleton_append, h.real a]
          exact .inr (.inl ⟨[], Tree.put_same⟩)
        · refine .inr (.inr ⟨f, Tls.create_frame ha ?_⟩)
          rw [List.singleton_append, h.real a]
          simpa using hf
    | mkdir | symlinkTo | rmtree => exact hc.elim
    | _ => exact hq.elim
  · cases c with
    | write p data =>
        obtain ⟨g, rfl⟩ := hc
        obtain rfl : g = f := by simpa [Call.touches, h.real] using hq
        obtain ⟨old, part, -, rfl⟩ := ht
        rw [h.real g]
        exact .inr (.inl ⟨part, Tree.put_same⟩)
    | rmtree p => exact hc.elim
    | _ => exact ht.elim

theorem Call.Inside.isPlain (hc : c.Inside n) (h : s.IsPlain n) {r : api.Settled c.Reply}
    (he : effect s c r s') : s'.IsPlain n := by
  constructor
  · rw [← h.directory]
    refine effect_frame he fun hq => ?_
    obtain ⟨f, hf⟩ := hc.touches h hq
    simp at hf
  · intro f target hlink
    obtain hnone | ⟨data, hfile⟩ | ⟨g, hold⟩ := hc.node h he f
    · rw [hnone] at hlink
      cases hlink
    · rw [hfile] at hlink
      cases hlink
    · exact h.noLinks g target (hold ▸ hlink)

/-- A new directory is plain. -/
theorem effect_mkdir {mode : Nat} (h : effect s (.mkdir [n] mode) (.ok ()) s') : s'.IsPlain n := by
  obtain ⟨-, -, rfl⟩ := Tls.create_eq_some (p := [n]) h
  refine ⟨Tree.put_same, fun f target hlink => ?_⟩
  have hnone : ((s.tree.prune [n] fun _ => false).put [n] .directory).node [n, f] = none :=
    (Tree.put_other (by simp)).trans (if_pos ⟨by simp, rfl⟩)
  cases hnone.symm.trans hlink

/-- A new link names its target. -/
theorem effect_symlinkTo {target : Name} (h : effect s (.symlinkTo [n] target) (.ok ()) s') :
    s'.tree.node [n] = some (.link target) := by
  obtain ⟨-, -, rfl⟩ := Tls.create_eq_some (p := [n]) h
  exact Tree.put_same

/-- The pair that `load_cert_chain` accepts in a plain directory is what it holds. -/
theorem effect_loadCertChain (h : s.IsPlain n)
    (he : effect s (.loadCertChain [n, PairFile.fullchain.name] [n, PairFile.privkey.name])
      (.ok ()) s') : s'.Holds n := by
  replace he : s.perform
      (.loadCertChain [n, PairFile.fullchain.name] [n, PairFile.privkey.name]) () = some s' := he
  simp only [Tls.perform] at he
  split at he
  · rename_i cert key hcert hkey
    obtain rfl := Option.some.inj he
    exact ⟨h.directory, cert, key, h.contents hcert, h.contents hkey, List.mem_cons_self ..⟩
  · cases he

end

end BrowserVpn.Manager
