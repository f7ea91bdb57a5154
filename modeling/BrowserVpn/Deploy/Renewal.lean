import BrowserVpn.Deploy.Children
import BrowserVpn.Deploy.Crash

/-!
# Deploy.Renewal — what a cycle that returns has done

`run_cycle` returns only when everything went well. Then Certbot exited with 0, the pair
that was read from its lineage is the one that `current` names, as it was read and as
`validate_pair` accepted it, and the health check exited with 0 while this was so.
-/

namespace BrowserVpn.Manager

open Async Data

section

variable {α : Type} {s s' : Tls} {ms : History} {n : Name}

/-! ## Calls that answered -/

theorem request_ok {c : Call} {a : c.Reply}
    (h : Path effect (request c) s ms (.done (.ok a)) s') :
    s.perform c a = some s' ∧ ms = [⟨s, c, .ok a, s'⟩] :=
  h.of_await

/-- A program whose calls are quiet leaves the tree as it is at every moment. -/
theorem quiet_path {p p' : Py α} (hp : p.Within (fun c : Call => c.quiet = true) fun _ => True)
    (h : Path effect p s ms p' s') :
    s'.tree.node = s.tree.node ∧
      ∀ m ∈ ms, m.before.tree.node = s.tree.node ∧ m.after.tree.node = s.tree.node := by
  refine Path.within (R := fun s t : Tls => t.tree.node = s.tree.node) ?_ ?_ ?_ hp h
  · exact fun _ => rfl
  · exact fun h h' => h'.trans h
  · exact fun hc he => effect_quiet he hc

theorem Tls.IsPlain.of_node (h : s.IsPlain n) (hnode : s'.tree.node = s.tree.node) : s'.IsPlain n := by
  constructor
  · rw [hnode]
    exact h.directory
  · rw [hnode]
    exact h.noLinks

/-! ## Files inside a plain directory -/

theorem Tls.IsPlain.file_of_prefix {f g : Name} (h : s.IsPlain n)
    (hbelow : s.tree.real [n, g] <+: [n, f]) : g = f := by
  rw [h.real] at hbelow
  simpa using hbelow.eq_of_length rfl

theorem mkstemp_ok {start temporary : Name} (hplain : s.IsPlain n)
    (h : s.perform (.mkstemp start [n]) temporary = some s') :
    s'.IsPlain n ∧ start <+: temporary ∧
      ∀ f, temporary ≠ f → s'.tree.node [n, f] = s.tree.node [n, f] := by
  have he : effect s (.mkstemp start [n]) (.ok temporary) s' := h
  have hinside : (Call.mkstemp start [n]).Inside n := rfl
  refine ⟨hinside.isPlain hplain he, ?_⟩
  simp only [Tls.perform] at h
  split at h
  · rename_i hstart
    refine ⟨hstart, fun f hf => Tls.create_frame h fun hq => hf ?_⟩
    exact hplain.file_of_prefix hq
  · cases h

theorem write_ok {temporary : Name} {data : Bytes} (hplain : s.IsPlain n)
    (h : s.perform (.write [n, temporary] data) () = some s') :
    s'.IsPlain n ∧ s'.tree.node [n, temporary] = some (.file data) ∧
      ∀ f, temporary ≠ f → s'.tree.node [n, f] = s.tree.node [n, f] := by
  have he : effect s (.write [n, temporary] data) (.ok ()) s' := h
  have hinside : (Call.write [n, temporary] data).Inside n := ⟨temporary, rfl⟩
  refine ⟨hinside.isPlain hplain he, ?_, ?_⟩
  · simp only [Tls.perform] at h
    split at h
    · obtain rfl := Option.some.inj h
      rw [hplain.real]
      exact Tree.put_same
    · cases h
  · exact fun f hf => effect_frame he fun hq => hf (hplain.file_of_prefix hq)

theorem replace_ok {temporary name : Name} (hplain : s.IsPlain n)
    (h : s.perform (.replace [n, temporary] [n, name]) () = some s') :
    s'.IsPlain n ∧ s'.tree.node [n, name] = s.tree.node [n, temporary] ∧
      ∀ f, temporary ≠ f → name ≠ f → s'.tree.node [n, f] = s.tree.node [n, f] := by
  have he : effect s (.replace [n, temporary] [n, name]) (.ok ()) s' := h
  have hinside : (Call.replace [n, temporary] [n, name]).Inside n := ⟨⟨temporary, rfl⟩, name, rfl⟩
  refine ⟨hinside.isPlain hplain he, ?_, ?_⟩
  · rcases effect_replace he with ⟨-, hno⟩ | ⟨-, rfl⟩
    · exact absurd rfl hno
    · rw [hplain.real, hplain.real]
      exact Tree.rename_target (t := s.tree) []
  · intro f hf hname
    refine effect_frame he fun hq => ?_
    rcases hq with hq | hq
    · exact hf (hplain.file_of_prefix hq)
    · exact hname (hplain.file_of_prefix hq)

theorem unlink_ok {temporary : Name} (hplain : s.IsPlain n)
    (h : s.perform (.unlink [n, temporary]) () = some s') :
    s'.IsPlain n ∧ ∀ f, temporary ≠ f → s'.tree.node [n, f] = s.tree.node [n, f] := by
  have he : effect s (.unlink [n, temporary]) (.ok ()) s' := h
  have hinside : (Call.unlink [n, temporary]).Inside n := ⟨temporary, rfl⟩
  exact ⟨hinside.isPlain hplain he, fun f hf =>
    effect_frame he fun hq => hf (hplain.file_of_prefix hq)⟩

/-- `atomic_write` leaves the file with the data, and the others whose names do not
begin with a dot as they were. -/
theorem atomicWrite_ok {name : Name} {data : Bytes} (hplain : s.IsPlain n) (hname : ¬IsHidden name)
    (h : Path effect (atomicWrite [n] name data) s ms (.done (.ok ())) s') :
    s'.IsPlain n ∧ s'.tree.node [n, name] = some (.file data) ∧
      ∀ f, ¬IsHidden f → name ≠ f → s'.tree.node [n, f] = s.tree.node [n, f] := by
  rcases h.of_bind_ok with ⟨temporary, s₁, _, _, hmkstemp, hrest, -⟩
  rcases mkstemp_ok hplain (request_ok hmkstemp).1 with ⟨hplain₁, hstart, hkept₁⟩
  have htemporary : ∀ f, ¬IsHidden f → temporary ≠ f := by
    rintro f hf rfl
    rcases hstart with ⟨rest, rfl⟩
    exact hf rfl
  rcases hrest.of_finallyDo_ok with ⟨s₆, _, _, hbody, hcleanup, -⟩
  -- the file that is written
  rcases hbody.of_bind_ok with ⟨_, s₂, _, _, hfdopen, hbody, -⟩
  have hnode₂ := (quiet_path (quiet_request rfl) hfdopen).1
  rcases hbody.of_bind_ok with ⟨_, s₄, _, _, hinner, hbody, -⟩
  rcases hinner.of_finallyDo_ok with ⟨t, _, _, hinner, hclose, -⟩
  rcases hinner.of_bind_ok with ⟨_, s₃, _, _, hwrite, hsync, -⟩
  rcases write_ok (hplain₁.of_node hnode₂) (request_ok hwrite).1 with ⟨hplain₃, hdata, hkept₃⟩
  have hnode₄ : s₄.tree.node = s₃.tree.node := by
    have hquiet := quiet_path ((quiet_request rfl).bind fun _ => (quiet_request rfl).bind fun _ =>
      quiet_request rfl) hsync
    exact ((quiet_path (quiet_request rfl) hclose).1).trans hquiet.1
  -- takes the place of the one before
  rcases hbody.of_bind_ok with ⟨_, s₅, _, _, hreplace, hfsync, -⟩
  rcases replace_ok (hplain₃.of_node hnode₄) (request_ok hreplace).1 with ⟨hplain₅, hmoved, hkept₅⟩
  have hnode₆ := (quiet_path (quiet_fsyncDirectory [n]) hfsync).1
  -- and nothing is left to clean up
  rcases hcleanup.of_bind_ok with ⟨found, s₇, _, _, hlexists, hunlink, -⟩
  have hnode₇ := (quiet_path (quiet_request rfl) hlexists).1
  have hplain₇ : s₇.IsPlain n := hplain₅.of_node (hnode₇.trans hnode₆)
  have hlast : s'.IsPlain n ∧ ∀ f, temporary ≠ f → s'.tree.node [n, f] = s₅.tree.node [n, f] := by
    have hsame : s₇.tree.node = s₅.tree.node := hnode₇.trans hnode₆
    split at hunlink
    · rcases unlink_ok hplain₇ (request_ok hunlink).1 with ⟨hplain', hkept'⟩
      exact ⟨hplain', fun f hf => (hkept' f hf).trans (by rw [hsame])⟩
    · rcases hunlink.of_done with ⟨-, -, rfl⟩
      exact ⟨hplain₇, fun f _ => by rw [hsame]⟩
  refine ⟨hlast.1, ?_, ?_⟩
  · rw [hlast.2 name (htemporary name hname), hmoved, hnode₄, hdata]
  · intro f hf hne
    have htemp := htemporary f hf
    rw [hlast.2 f htemp, hkept₅ f htemp hne, hnode₄, hkept₃ f htemp, hnode₂, hkept₁ f htemp]

/-! ## The published pair -/

/-- An entry that does not begin with a dot is as it was. -/
theorem unlink_entry_ok {link : Name} (hlink : IsHidden link) {found : Bool}
    (h : Path effect (if found then request (.unlink [link]) else pure ()) s ms (.done (.ok ())) s')
    {m : Name} (hm : ¬IsHidden m) (rest : Place) : s'.tree.node (m :: rest) = s.tree.node (m :: rest) := by
  split at h
  · have he : effect s (.unlink [link]) (.ok ()) s' := (request_ok h).1
    have hhidden : (Call.unlink [link]).Hidden s := by
      rintro q ⟨rest, rfl⟩
      exact ⟨link, rest, rfl, hlink⟩
    exact hhidden.frame he hm rest
  · rcases h.of_done with ⟨-, -, rfl⟩
    rfl

theorem switchToVersion_ok {name : Name}
    (h : Path effect (switchToVersion name) s ms (.done (.ok ())) s') :
    s'.now = some (.link name) ∧
      ∀ v rest, IsVersion v → s'.tree.node (v :: rest) = s.tree.node (v :: rest) := by
  rcases h.of_bind_ok with ⟨token, s₁, _, _, htoken, hrest, -⟩
  have hnode₁ := (quiet_path (quiet_request rfl) htoken).1
  have hlink := isHidden_link token
  rcases hrest.of_finallyDo_ok with ⟨s₄, _, _, hbody, hcleanup, -⟩
  rcases hbody.of_bind_ok with ⟨_, s₂, _, _, hsymlink, hbody, -⟩
  have he₂ : effect s₁ (.symlinkTo [".current-".toList ++ token] name) (.ok ()) s₂ :=
    (request_ok hsymlink).1
  have hhidden : (Call.symlinkTo [".current-".toList ++ token] name).Hidden s₁ := by
    rintro q ⟨rest, rfl⟩
    exact ⟨_, rest, rfl, hlink⟩
  rcases hbody.of_bind_ok with ⟨_, s₃, _, _, hreplace, hfsync, -⟩
  have he₃ : effect s₂ (.replace [".current-".toList ++ token] [current]) (.ok ()) s₃ :=
    (request_ok hreplace).1
  have hnode₄ := (quiet_path (quiet_fsyncDirectory []) hfsync).1
  rcases hcleanup.of_bind_ok with ⟨found, s₅, _, _, hlexists, hunlink, -⟩
  have hnode₅ := (quiet_path (quiet_request rfl) hlexists).1
  have hlast : ∀ m rest, ¬IsHidden m → s'.tree.node (m :: rest) = s₃.tree.node (m :: rest) := by
    intro m rest hm
    rw [unlink_entry_ok hlink hunlink hm rest, hnode₅, hnode₄]
  rcases effect_replace_entry he₃ with ⟨-, hno⟩ | ⟨-, rfl⟩
  · exact absurd rfl hno
  constructor
  · have hnow := hlast current [] current_not_hidden
    exact hnow.trans ((Tree.rename_target (t := s₂.tree) []).trans (effect_symlinkTo he₂))
  · intro v rest hv
    have hnot := hv.not_hidden
    rw [hlast v rest hnot]
    have hkept : (s₂.tree.rename [".current-".toList ++ token] [current]).node (v :: rest) =
        s₂.tree.node (v :: rest) := by
      apply Tree.rename_other
      · intro hq
        rcases List.cons_prefix_cons.1 hq with ⟨rfl, -⟩
        exact hnot hlink
      · intro hq
        exact hv.ne_current (List.cons_prefix_cons.1 hq).1.symm
    exact hkept.trans ((hhidden.frame he₂ hnot rest).trans (by rw [hnode₁]))

theorem PairFile.not_hidden (file : PairFile) : ¬IsHidden file.name := by
  intro h
  cases file with
  | fullchain =>
      have hhead : some 'f' = some '.' := h
      cases hhead
  | privkey =>
      have hhead : some 'p' = some '.' := h
      cases hhead

/-- Through `current` these two files can be read. -/
structure Tls.Shows (s : Tls) (cert key : Bytes) : Prop where
  fullchain : s.tree.contents [current, PairFile.fullchain.name] = some cert
  privkey : s.tree.contents [current, PairFile.privkey.name] = some key

/-- `current` names the version with these two files. -/
structure Tls.Names (s : Tls) (v : Name) (cert key : Bytes) : Prop where
  now : s.now = some (.link v)
  directory : s.tree.node [v] = some .directory
  fullchain : s.tree.node [v, PairFile.fullchain.name] = some (.file cert)
  privkey : s.tree.node [v, PairFile.privkey.name] = some (.file key)

theorem Tls.Names.shows {v : Name} {cert key : Bytes} (h : s.Names v cert key) : s.Shows cert key := by
  have hcontents : ∀ f data, s.tree.node [v, f] = some (.file data) →
      s.tree.contents [Manager.current, f] = some data := by
    intro f data hfile
    have hnode : s.tree.node [Manager.current] = some (.link v) := h.now
    have hreal : s.tree.real [Manager.current, f] = [v, f] := by
      simp [Tree.real, Tree.through, hnode]
    have hlstat : s.tree.lstat [Manager.current, f] = some (.file data) := by
      rw [Tree.lstat, hreal, hfile]
      simp [Tree.hasParent, h.directory]
    rw [Tree.contents, Tree.stat, hlstat]
  exact ⟨hcontents _ _ h.fullchain, hcontents _ _ h.privkey⟩

theorem Tls.Names.of_same {v : Name} {cert key : Bytes} (h : s.Names v cert key)
    (hsame : s.tree.SameAt s'.tree [v]) (hnow : s'.now = s.now) : s'.Names v cert key := by
  have hbelow : ∀ rest, s'.tree.node (v :: rest) = s.tree.node (v :: rest) :=
    fun rest => hsame _ ⟨rest, rfl⟩
  exact ⟨hnow.trans h.now, (hbelow []).trans h.directory, (hbelow _).trans h.fullchain,
    (hbelow _).trans h.privkey⟩

theorem publishStaging_ok {staging version : Name} {certData keyData : Bytes}
    (hplain : s.IsPlain staging) (hversion : IsVersion version)
    (h : Path effect (publishStaging staging version certData keyData) s ms (.done (.ok ())) s') :
    s'.Names version certData keyData := by
  have hne : PairFile.privkey.name ≠ PairFile.fullchain.name := by decide
  rcases h.of_bind_ok with ⟨_, s₁, _, _, hchown, h, -⟩
  have hplain₁ := hplain.of_node (quiet_path (quiet_request rfl) hchown).1
  rcases h.of_bind_ok with ⟨_, s₂, _, _, hcert, h, -⟩
  rcases atomicWrite_ok hplain₁ (PairFile.not_hidden _) hcert with ⟨hplain₂, hcert₂, -⟩
  rcases h.of_bind_ok with ⟨_, s₃, _, _, hkey, h, -⟩
  rcases atomicWrite_ok hplain₂ (PairFile.not_hidden _) hkey with ⟨hplain₃, hkey₃, hkept₃⟩
  have hcert₃ := (hkept₃ _ (PairFile.not_hidden _) hne).trans hcert₂
  rcases h.of_bind_ok with ⟨_, s₄, _, _, hvalidate, h, -⟩
  have hnode₄ := (quiet_path (p := validatePair _ _) ?_ hvalidate).1
  swap
  · refine (quiet_request rfl).tryCatch fun e => ?_
    split <;> trivial
  rcases h.of_bind_ok with ⟨_, s₅, _, _, hreplace, h, -⟩
  have hmoved : ∀ rest, s₅.tree.node (version :: rest) = s₄.tree.node (staging :: rest) := by
    have he₅ : effect s₄ (.replace [staging] [version]) (.ok ()) s₅ := (request_ok hreplace).1
    intro rest
    rcases effect_replace_entry he₅ with ⟨-, hno⟩ | ⟨-, rfl⟩
    · exact absurd rfl hno
    · exact Tree.rename_target (t := s₄.tree) rest
  rcases h.of_bind_ok with ⟨_, s₆, _, _, hfsync, h, -⟩
  have hnode₆ := (quiet_path (quiet_fsyncDirectory []) hfsync).1
  rcases switchToVersion_ok h with ⟨hnow, hkept⟩
  have hfinal : ∀ rest, s'.tree.node (version :: rest) = s₃.tree.node (staging :: rest) := by
    intro rest
    rw [hkept version rest hversion, hnode₆, hmoved rest, hnode₄]
  exact ⟨hnow, (hfinal []).trans hplain₃.directory, (hfinal [_]).trans hcert₃, (hfinal [_]).trans hkey₃⟩

theorem Tls.Shows.of_node {cert key : Bytes} (h : s.Shows cert key)
    (hnode : s'.tree.node = s.tree.node) : s'.Shows cert key := by
  constructor
  · rw [Tree.contents_congr hnode]
    exact h.fullchain
  · rw [Tree.contents_congr hnode]
    exact h.privkey

theorem readBytes_ok {p : Place} {data : Bytes}
    (h : Path effect (request (.readBytes p)) s ms (.done (.ok data)) s') :
    s.tree.contents p = some data ∧ s' = s := by
  have hperform := (request_ok h).1
  simp only [Tls.perform] at hperform
  split at hperform
  · rename_i hcontents
    exact ⟨hcontents, (Option.some.inj hperform).symm⟩
  · cases hperform

theorem matchingPublishedPair_ok {certData keyData : Bytes}
    (h : Path effect (matchingPublishedPair certData keyData) s ms (.done (.ok true)) s') :
    s'.Shows certData keyData := by
  rcases h.of_tryCatch_ok with hbody | ⟨e, t, _, _, -, hhandler, -⟩
  · rcases hbody.of_bind_ok with ⟨cert, s₁, _, _, hread, hrest, -⟩
    rcases readBytes_ok hread with ⟨hcert, rfl⟩
    by_cases hsame : cert = certData
    · rw [if_pos hsame] at hrest
      rcases hrest.of_bind_ok with ⟨key, s₂, _, _, hread', hlast, -⟩
      rcases readBytes_ok hread' with ⟨hkey, rfl⟩
      rcases hlast.of_done with ⟨-, htrue, rfl⟩
      have hkeys : key = keyData := of_decide_eq_true (Except.ok.inj htrue).symm
      exact ⟨hsame ▸ hcert, hkeys ▸ hkey⟩
    · rw [if_neg hsame] at hrest
      have hfalse := hrest.of_done.2.1
      cases hfalse
  · -- a file that is missing is no match
    cases e with
    | fileNotFound =>
        have hfalse := hhandler.of_done.2.1
        cases hfalse
    | _ =>
        have hthrown := hhandler.of_done.2.1
        cases hthrown

/-- The two files of the lineage are read, one right after the other. -/
def ReadsPair (ms : History) (cert key : Bytes) : Prop :=
  ∃ before after t₁ t₂ t₃, ms = before ++ (⟨t₁, .readLineage .fullchain, .ok cert, t₂⟩ ::
    ⟨t₂, .readLineage .privkey, .ok key, t₃⟩ :: after)

theorem removeStaging_ok {staging : Name} (hstaging : IsHidden staging)
    (h : Path effect (removeStaging staging) s ms (.done (.ok ())) s') {m : Name}
    (hm : ¬IsHidden m) (rest : Place) : s'.tree.node (m :: rest) = s.tree.node (m :: rest) := by
  rcases h.of_bind_ok with ⟨found, s₁, _, _, hlook, hrest, -⟩
  have hnode₁ := (quiet_path (quiet_request rfl) hlook).1
  split at hrest
  · have he : effect s₁ (.rmtree [staging]) (.ok ()) s' := (request_ok hrest).1
    have hhidden : (Call.rmtree [staging]).Hidden s₁ := by
      rintro q ⟨rest, rfl⟩
      exact ⟨staging, rest, rfl, hstaging⟩
    exact (hhidden.frame he hm rest).trans (by rw [hnode₁])
  · rcases hrest.of_done with ⟨-, -, rfl⟩
    rw [hnode₁]

/-- What `publish_certificate` has read is what `current` shows. -/
theorem publishCertificate_ok {previous : Option Name}
    (h : Path effect publishCertificate s ms (.done (.ok previous)) s') :
    ∃ cert key, ReadsPair ms cert key ∧ s'.Shows cert key := by
  rcases h.of_bind_ok with ⟨complete, s₁, ms₁, _, -, hrest, hms₁⟩
  split at hrest
  · have hthrown := hrest.of_done.2.1
    cases hthrown
  rcases hrest.of_bind_ok with ⟨cert, s₂, _, ms₂, hcert, hrest, hms₂⟩
  rcases hrest.of_bind_ok with ⟨key, s₃, _, ms₃, hkey, hrest, hms₃⟩
  refine ⟨cert, key, ⟨ms₁, ms₃, s₁, s₂, s₃, ?_⟩, ?_⟩
  · rw [hms₁, hms₂, hms₃, (request_ok hcert).2, (request_ok hkey).2]
    rfl
  rcases hrest.of_bind_ok with ⟨previous', s₄, _, _, hcurrent, hrest, -⟩
  rcases hrest.of_bind_ok with ⟨published, s₅, _, _, hmatching, hrest, -⟩
  cases published with
  | true =>
      have hshows := matchingPublishedPair_ok hmatching
      rcases hrest.of_done with ⟨-, -, rfl⟩
      exact hshows
  | false =>
      rcases hrest.of_bind_ok with ⟨token, s₆, _, _, htoken, hrest, -⟩
      rcases hrest.of_bind_ok with ⟨_, s₇, _, _, hmkdir, hrest, -⟩
      have hplain : s₇.IsPlain (".staging-".toList ++ token) := effect_mkdir (request_ok hmkdir).1
      rcases hrest.of_bind_ok with ⟨_, s₈, _, _, hpublish, hrest, -⟩
      rcases hrest.of_done with ⟨-, -, rfl⟩
      rcases hpublish.of_finallyDo_ok with ⟨t, _, _, hstaging, hremove, -⟩
      have hversion : IsVersion ("version-".toList ++ token) := ⟨token, rfl⟩
      have hnames := publishStaging_ok hplain hversion hstaging
      have hkept : ∀ m rest, ¬IsHidden m → s'.tree.node (m :: rest) = t.tree.node (m :: rest) :=
        fun m rest hm => removeStaging_ok (isHidden_staging token) hremove hm rest
      have hsame : t.tree.SameAt s'.tree ["version-".toList ++ token] := by
        rintro q ⟨rest, rfl⟩
        exact hkept _ rest hversion.not_hidden
      exact (hnames.of_same hsame (hkept current [] current_not_hidden)).shows

/-! ## Children that exited with 0 -/

/-- In these moves the child was seen to have exited with 0. -/
def ExitsWell (ms : History) (child : Child) : Prop :=
  ∃ m ∈ ms, ∃ t t', m = ⟨t, .poll child, .ok (some 0), t'⟩

theorem ExitsWell.mono {child : Child} {ms' : History} (h : ExitsWell ms child) (hsub : ms ⊆ ms') :
    ExitsWell ms' child := by
  rcases h with ⟨m, hm, hexit⟩
  exact ⟨m, hsub hm, hexit⟩

theorem awaitChild_ok {child : Child} {deadline : Int}
    (h : Path effect (awaitChild child deadline) s ms (.done (.ok (some ()))) s') :
    ExitsWell ms child := by
  rcases h.of_bind_ok with ⟨status, s₁, _, ms₂, hpoll, hrest, hms⟩
  rw [(request_ok hpoll).2] at hms
  cases status with
  | some result =>
      by_cases hresult : result = 0
      · subst hresult
        exact ⟨_, by rw [hms]; exact List.mem_cons_self, s, s₁, rfl⟩
      · simp only [ne_eq, hresult, not_false_eq_true, if_true] at hrest
        have hthrown := hrest.of_done.2.1
        cases hthrown
  | none =>
      -- this round returns `None`
      rcases hrest.of_bind_ok with ⟨stopping, _, _, _, -, hrest, -⟩
      split at hrest
      · have hthrown := hrest.of_done.2.1
        cases hthrown
      rcases hrest.of_bind_ok with ⟨now, _, _, _, -, hrest, -⟩
      split at hrest
      · have hthrown := hrest.of_done.2.1
        cases hthrown
      rcases hrest.of_bind_ok with ⟨later, _, _, _, -, hrest, -⟩
      rcases hrest.of_bind_ok with ⟨_, _, _, _, -, hrest, -⟩
      have hnone := hrest.of_done.2.1
      cases hnone

/-- A loop that ends has had a round that ended it. -/
theorem whileTrue_ok {rounds : Nat} {body : Py (Option α)} {a : α}
    (h : Path effect (whileTrue rounds body) s ms (.done (.ok a)) s') :
    ∃ t t' ms₁ ms₂, Path effect body t ms₁ (.done (.ok (some a))) t' ∧ ms = ms₂ ++ ms₁ := by
  induction rounds generalizing s ms with
  | zero =>
      rcases h.of_bind_ok with ⟨never, _⟩
      exact never.elim
  | succ rounds ih =>
      rcases h.of_bind_ok with ⟨result, t, ms₁, ms₂, hbody, hrest, rfl⟩
      cases result with
      | some b =>
          rcases hrest.of_done with ⟨rfl, hsame, rfl⟩
          obtain rfl := Except.ok.inj hsame
          exact ⟨s, _, ms₁, [], hbody, by simp⟩
      | none =>
          rcases ih hrest with ⟨u, u', ms₃, ms₄, hround, rfl⟩
          exact ⟨u, u', ms₃, ms₁ ++ ms₄, hround, (List.append_assoc ..).symm⟩

theorem runExternal_ok {patience : Patience} {child : Child} {timeout : Int}
    (h : Path effect (runExternal patience child timeout) s ms (.done (.ok ())) s') :
    ExitsWell ms child := by
  rcases h.of_bind_ok with ⟨_, s₁, _, _, -, hrest, hms₁⟩
  rcases hrest.of_bind_ok with ⟨now, s₂, _, ms₂, -, htry, hms₂⟩
  rcases htry.of_tryCatch_ok with hloop | ⟨e, t, _, _, -, hhandler, -⟩
  · rcases whileTrue_ok hloop with ⟨u, u', ms₃, ms₄, hround, hms₃⟩
    apply (awaitChild_ok hround).mono
    intro m hm
    rw [hms₁, hms₂, hms₃]
    simp [hm]
  · -- the handler raises again
    have hagain : ∃ u ms', Path effect (throw e : Py Unit) u ms' (.done (.ok ())) s' := by
      split at hhandler
      · rcases hhandler.of_bind_ok with ⟨_, u, _, ms', -, hthrow, -⟩
        exact ⟨u, ms', hthrow⟩
      · exact ⟨t, _, hhandler⟩
    rcases hagain with ⟨u, ms', hthrow⟩
    have hthrown := hthrow.of_done.2.1
    cases hthrown

theorem runCertbot_ok {patience : Patience} (h : Path effect (runCertbot patience) s ms
    (.done (.ok none)) s') : ∃ first, ExitsWell ms (.certbot first) := by
  rcases h.of_bind_ok with ⟨complete, s₁, _, ms₂, -, htry, hms₁⟩
  refine ⟨!complete, ?_⟩
  rcases htry.of_tryCatch_ok with hbody | ⟨e, t, _, _, -, hhandler, -⟩
  · rcases hbody.of_bind_ok with ⟨_, s₂, _, ms₃, hexternal, -, hms₂⟩
    apply (runExternal_ok hexternal).mono
    intro m hm
    rw [hms₁, hms₂]
    simp [hm]
  · cases e with
    | managerError message =>
        rcases hhandler.of_bind_ok with ⟨complete', u, _, _, -, hrest, -⟩
        split at hrest
        · have hsome := hrest.of_done.2.1
          cases hsome
        · have hthrown := hrest.of_done.2.1
          cases hthrown
    | _ =>
        have hthrown := hhandler.of_done.2.1
        cases hthrown

theorem runHealthcheck_ok {patience : Patience} {timeout : Nat}
    (h : Path effect (runHealthcheck patience timeout) s ms (.done (.ok ())) s') :
    ExitsWell ms .healthcheck := by
  rcases h.of_bind_ok with ⟨now, s₁, _, _, -, hloop, hms₁⟩
  rcases whileTrue_ok hloop with ⟨t, t', ms₃, ms₄, hround, hms₂⟩
  rcases hround.of_bind_ok with ⟨stopping, t₁, _, ms₅, -, hrest, hms₃⟩
  split at hrest
  · have hthrown := hrest.of_done.2.1
    cases hthrown
  rcases hrest.of_tryCatch_ok with hbody | ⟨e, u, _, _, -, hhandler, -⟩
  · rcases hbody.of_bind_ok with ⟨now', t₂, _, ms₆, -, hbody, hms₄⟩
    rcases hbody.of_bind_ok with ⟨_, t₃, _, ms₇, hexternal, -, hms₅⟩
    apply (runExternal_ok hexternal).mono
    intro m hm
    rw [hms₁, hms₂, hms₃, hms₄, hms₅]
    simp [hm]
  · -- a check that failed is tried again
    cases e with
    | managerError message =>
        rcases hhandler.of_bind_ok with ⟨now', _, _, _, -, hrest, -⟩
        split at hrest
        · have hthrown := hrest.of_done.2.1
          cases hthrown
        rcases hrest.of_bind_ok with ⟨now'', _, _, _, -, hrest, -⟩
        rcases hrest.of_bind_ok with ⟨_, _, _, _, -, hrest, -⟩
        have hnone := hrest.of_done.2.1
        cases hnone
    | _ =>
        have hthrown := hhandler.of_done.2.1
        cases hthrown

/-! ## The health check looks only -/

theorem quiet_whileTrue {rounds : Nat} {body : Py (Option α)}
    (hbody : body.Within (fun c : Call => c.quiet = true) fun _ => True) :
    (whileTrue rounds body).Within (fun c : Call => c.quiet = true) fun _ => True := by
  induction rounds with
  | zero => exact (quiet_request rfl).bind fun a => a.elim
  | succ rounds ih =>
      refine hbody.bind fun a => ?_
      cases a with
      | some a => trivial
      | none => exact ih

theorem quiet_awaitChild (child : Child) (deadline : Int) :
    (awaitChild child deadline).Within (fun c : Call => c.quiet = true) fun _ => True := by
  refine (quiet_request rfl).bind fun status => ?_
  cases status with
  | some result =>
      simp only
      split <;> trivial
  | none =>
      refine (quiet_request rfl).bind fun stopping => ?_
      split
      · trivial
      refine (quiet_request rfl).bind fun now => ?_
      split
      · trivial
      refine (quiet_request rfl).bind fun later => ?_
      exact (quiet_request rfl).bind fun _ => trivial

theorem quiet_endChild (child : Child) :
    (endChild child).Within (fun c : Call => c.quiet = true) fun _ => True := by
  refine (quiet_request rfl).bind fun status => ?_
  split
  · refine (quiet_request rfl).bind fun _ => ?_
    refine (quiet_request rfl).bind fun ended => ?_
    split
    · exact (quiet_request rfl).bind fun _ => quiet_request rfl
    · trivial
  · trivial

theorem quiet_runExternal (patience : Patience) (child : Child) (timeout : Int) :
    (runExternal patience child timeout).Within (fun c : Call => c.quiet = true) fun _ => True := by
  refine (quiet_request rfl).bind fun _ => ?_
  refine (quiet_request rfl).bind fun now => ?_
  refine (quiet_whileTrue (quiet_awaitChild child _)).tryCatch fun e => ?_
  split
  · exact (quiet_endChild child).bind fun _ => trivial
  · trivial

theorem quiet_runHealthcheck (patience : Patience) (timeout : Nat) :
    (runHealthcheck patience timeout).Within (fun c : Call => c.quiet = true) fun _ => True := by
  refine (quiet_request rfl).bind fun now => quiet_whileTrue ?_
  refine (quiet_request rfl).bind fun stopping => ?_
  split
  · trivial
  refine Prog.Within.tryCatch ?_ fun e => ?_
  · refine (quiet_request rfl).bind fun now => ?_
    exact (quiet_runExternal patience _ _).bind fun _ => trivial
  · cases e with
    | managerError message =>
        refine (quiet_request rfl).bind fun now => ?_
        split
        · trivial
        refine (quiet_request rfl).bind fun later => ?_
        exact (quiet_request rfl).bind fun _ => trivial
    | _ => trivial

/-! ## The cycle -/

theorem renewAndPublish_ok {patience : Patience} {failure : Option Raised} {previous : Option Name}
    (h : Path effect (renewAndPublish patience) s ms (.done (.ok (failure, previous))) s') :
    ∃ t t' ms₁ ms₂, Path effect (runCertbot patience) t ms₁ (.done (.ok failure)) t' ∧
      Path effect publishCertificate t' ms₂ (.done (.ok previous)) s' ∧
      ∃ ms₀, ms = (ms₀ ++ ms₁) ++ ms₂ := by
  rcases h.of_bind_ok with ⟨_, s₁, a₁, _, -, hrest, h₁⟩
  rcases hrest.of_bind_ok with ⟨_, s₂, a₂, _, -, hrest, h₂⟩
  rcases hrest.of_bind_ok with ⟨_, s₃, a₃, _, -, hrest, h₃⟩
  rcases hrest.of_bind_ok with ⟨_, s₄, a₄, _, -, hrest, h₄⟩
  rcases hrest.of_bind_ok with ⟨_, s₅, a₅, _, -, hrest, h₅⟩
  rcases hrest.of_bind_ok with ⟨failure', s₆, ms₁, _, hcertbot, hrest, h₆⟩
  rcases hrest.of_bind_ok with ⟨previous', s₇, ms₂, _, hpublish, hrest, h₇⟩
  rcases hrest.of_done with ⟨hnil, hsame, rfl⟩
  obtain ⟨rfl, rfl⟩ := Prod.mk.inj (Except.ok.inj hsame)
  refine ⟨s₅, s₆, ms₁, ms₂, hcertbot, hpublish, a₁ ++ (a₂ ++ (a₃ ++ (a₄ ++ a₅))), ?_⟩
  simp [h₁, h₂, h₃, h₄, h₅, h₆, h₇, hnil]

theorem rollBack_raises {previous : Option Name} {e : Raised} {u : Unit} :
    ¬Path effect (rollBack previous e) s ms (.done (.ok u)) s' := by
  intro h
  have hthrow : rollBack previous e = throw e ∨
      ∃ version, rollBack previous e = switchToVersion version >>= fun _ => throw e := by
    cases he : e.isOwn with
    | false => exact Or.inl (by simp [rollBack, he])
    | true =>
        cases previous with
        | none => exact Or.inl (by simp [rollBack, he])
        | some version => exact Or.inr ⟨version, by simp [rollBack, he]⟩
  rcases hthrow with heq | ⟨version, heq⟩
  · rw [heq] at h
    have hthrown := h.of_done.2.1
    cases hthrown
  · rw [heq] at h
    rcases h.of_bind_ok with ⟨_, t, _, ms', -, hlast, -⟩
    have hthrown := hlast.of_done.2.1
    cases hthrown

/-- The file of a pair. -/
def PairFile.of : PairFile → Bytes × Bytes → Bytes
  | .fullchain, pair => pair.1
  | .privkey, pair => pair.2

/-- What can be read through `current` is of a version that holds an accepted pair. -/
theorem consistent_names (hs : s.Consistent) {file : PairFile} {data : Bytes}
    (h : s.tree.contents [current, file.name] = some data) :
    ∃ v, IsVersion v ∧ s.tree.node [v] ≠ none ∧
      ∃ pair ∈ s.accepted, s.Names v pair.1 pair.2 ∧ file.of pair = data := by
  rcases hs.current with hnone | ⟨v, hversion, hnow, hnode⟩
  · have hnode : s.tree.node [current] = none := hnone
    simp [Tree.contents, Tree.stat, Tree.lstat, Tree.real, Tree.through, Tree.hasParent, hnode] at h
  · rcases hs.versions v hversion hnode with ⟨hdirectory, cert, key, hcert, hkey, haccepted⟩
    have hnames : s.Names v cert key := ⟨hnow, hdirectory, hcert, hkey⟩
    refine ⟨v, hversion, hnode, (cert, key), haccepted, hnames, ?_⟩
    cases file with
    | fullchain => exact Option.some.inj (hnames.shows.fullchain.symm.trans h)
    | privkey => exact Option.some.inj (hnames.shows.privkey.symm.trans h)

/-- What is shown was accepted. -/
theorem Tls.Shows.accepted {cert key : Bytes} (h : s.Shows cert key) (hs : s.Consistent) :
    (cert, key) ∈ s.accepted := by
  rcases consistent_names hs h.fullchain with ⟨v, -, -, pair, haccepted, hnames, hcert⟩
  obtain rfl : pair.1 = cert := hcert
  obtain rfl : pair.2 = key := Option.some.inj (hnames.shows.privkey.symm.trans h.privkey)
  exact haccepted

/-- In a cycle that returns Certbot has exited with 0; the pair that was read from its
lineage after that is what `current` shows in the end, accepted as it stands; and it was
shown all the while until the health check exited with 0. -/
theorem cycle_publishes_what_it_reads {patience : Patience} (hs : World.Reached ⟨s, none⟩)
    (h : Path effect (runCycle patience) s ms (.done (.ok ())) s') :
    ∃ cert key ms₁ ms₂ ms₃, ms = ms₁ ++ (ms₂ ++ ms₃) ∧
      (∃ first, ExitsWell ms₁ (.certbot first)) ∧ ReadsPair ms₂ cert key ∧
      ExitsWell ms₃ .healthcheck ∧ (∀ m ∈ ms₃, m.before.Shows cert key ∧ m.after.Shows cert key) ∧
      s'.Shows cert key ∧ (cert, key) ∈ s'.accepted := by
  have hconsistent : s'.Consistent := (hs.cycle h).sound.consistent
  rcases h.of_bind_ok with ⟨⟨failure, previous⟩, t, _, ms₄, hrenew, hrest, hms⟩
  rcases renewAndPublish_ok hrenew with ⟨u, u', ms₁, ms₂, hcertbot, hpublish, ms₀, hms'⟩
  rcases publishCertificate_ok hpublish with ⟨cert, key, hreads, hshows⟩
  rcases hrest.of_bind_ok with ⟨_, t', ms₃, _, htry, hlast, hms₃⟩
  cases failure with
  | some e =>
      have hthrown := hlast.of_done.2.1
      cases hthrown
  | none =>
      rcases hlast.of_done with ⟨rfl, -, rfl⟩
      rcases htry.of_tryCatch_ok with hcheck | ⟨e, v, _, _, -, hhandler, -⟩
      swap
      · exact absurd hhandler rollBack_raises
      rcases quiet_path (quiet_runHealthcheck patience 120) hcheck with ⟨hnode, hmoves⟩
      have hshows' := hshows.of_node hnode
      rcases runCertbot_ok hcertbot with ⟨first, hexit⟩
      refine ⟨cert, key, ms₀ ++ ms₁, ms₂, ms₃, ?_, ⟨first, ?_⟩, hreads, runHealthcheck_ok hcheck, ?_,
        hshows', ?_⟩
      · rw [hms, hms', hms₃, List.append_nil, List.append_assoc]
      · exact hexit.mono (List.subset_append_right _ _)
      · intro m hm
        exact ⟨hshows.of_node (hmoves m hm).1, hshows.of_node (hmoves m hm).2⟩
      · exact hshows'.accepted hconsistent

end

/-- The first cycle, in the environment where nothing goes wrong. -/
theorem cycle_publishes_what_it_reads_sample :
    ∃ (ms : History) (s : Tls) (cert key : Bytes),
      Path effect (runCycle ⟨1, 1⟩) .empty ms (.done (.ok ())) s ∧ s.Shows cert key ∧
        (cert, key) ∈ s.accepted := by
  have hplay : sampleCycle.map (fun x => x.2.1) = some (.ok ()) := by decide +kernel
  rcases Option.map_eq_some_iff.1 hplay with ⟨⟨ms, r, s⟩, hrun, hreturned⟩
  have hpath : Path effect (runCycle ⟨1, 1⟩) .empty ms (.done r) s :=
    Path.of_play (fun _ _ _ _ => sampleWorld_effect) hrun
  obtain rfl : r = .ok () := hreturned
  have hstart : World.Reached ⟨.empty, none⟩ := ⟨[], .nil⟩
  rcases cycle_publishes_what_it_reads hstart hpath with
    ⟨cert, key, ms₁, ms₂, ms₃, -, -, -, -, -, hshows, haccepted⟩
  exact ⟨ms, s, cert, key, hpath, hshows, haccepted⟩

end BrowserVpn.Manager
