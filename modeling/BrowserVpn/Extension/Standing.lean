import BrowserVpn.Extension.Told

/-!
# Extension.Standing — proxy errors are not lost

A task of the queue stores a proxy error; from then on the error stands until
the user connects, disconnects, forgets or imports, or until an IP check clears
it. `standing` reads this off the trace, and `errorStamp` which error it was.
-/

namespace BrowserVpn

open Async

/-! ## Readings of the trace -/

/-- An error stands: a task has stored it, and since then no operation that takes
it back has started and no IP check has cleared it. It outlives the worker. -/
def standing : List Obs → Bool
  | [] => false
  | .started op _ :: trace => !op.dismisses && standing trace
  | .landed .op (.storageSet p) (.ok ()) :: trace =>
      match p.proxyError with
      | some (some _) => true
      | some none => standing trace && !(busy trace).any fun e => e.1.isClearError
      | none => standing trace
  | _ :: trace => standing trace

/-- The number of the error that this worker has stored last. -/
def errorStamp : List Obs → Option Nat
  | [] => none
  | .restarted :: _ => none
  | .landed .op (.storageSet p) (.ok ()) :: trace =>
      match p.proxyError with
      | some (some _) => (busy trace).bind fun e => e.1.stamp
      | _ => errorStamp trace
  | _ :: trace => errorStamp trace

section

variable [Platform] [Browser] {ok : Rules} {w : World} {s s' : Sys} {l : Label}

/-! ## The stored error -/

omit [Platform] [Browser] in
/-- What the readings make of a call that has landed. -/
theorem readings_landed {a : Actor} {c : Call} {r : Except String (Reply c)} {trace : List Obs}
    (h : ∀ p, a = .op → c = .storageSet p → p.proxyError = none) :
    standing (.landed a c r :: trace) = standing trace ∧
      errorStamp (.landed a c r :: trace) = errorStamp trace := by
  cases a with
  | boot => exact ⟨rfl, rfl⟩
  | task t => exact ⟨rfl, rfl⟩
  | op =>
      cases c with
      | storageSet p =>
          have hnone := h p rfl rfl
          rcases r with e | ⟨⟩
          · exact ⟨rfl, rfl⟩
          · simp [standing, errorStamp, hnone]
      | _ => exact ⟨rfl, rfl⟩

omit [Platform] in
theorem World.land_proxyError {w w' : World} {c : Call} {o : Outcome}
    {r : Except String (Reply c)} (h : w.land c o = some (r, w'))
    (hset : ∀ p, c = .storageSet p → p.proxyError = none) :
    w'.storage.proxyError = w.storage.proxyError := by
  cases c with
  | storageSet p =>
      cases o <;> simp only [World.land, Option.some.injEq, Prod.mk.injEq, reduceCtorEq] at h <;>
        obtain ⟨-, rfl⟩ := h
      · simp [Storage.set, hset p rfl]
      · rfl
  | _ =>
      cases o <;> simp only [World.land, Option.some.injEq, Prod.mk.injEq, reduceCtorEq] at h <;>
        obtain ⟨-, rfl⟩ := h <;> rfl

/-- What a step does to the stored error, and what the readings make of it. -/
inductive ErrorStep (s : Sys) (l : Label) (s' : Sys) : Prop
  | same (hl : l ≠ .start) (hstored : s'.world.storage.proxyError = s.world.storage.proxyError)
      (hstanding : standing s'.trace = standing s.trace)
      (hstamp : errorStamp s'.trace = errorStamp s.trace)
  | started {op : Op} {owner : Option Nat} (hl : l = .start)
      (hstored : s'.world.storage.proxyError = s.world.storage.proxyError)
      (htrace : s'.trace = .started op owner :: s.trace)
  | restarted (hl : l = .restart)
      (hstored : s'.world.storage.proxyError = s.world.storage.proxyError)
      (htrace : s'.trace = .restarted :: s.trace)
  | stored {op : Op} {owner : Option Nat} {e : ProxyError} {n : Nat} (hl : l = .land .op .done)
      (hbusy : busy s.trace = some (op, owner)) (hop : op.stamp = some n)
      (hstored : s'.world.storage.proxyError = some e) (hstanding : standing s'.trace = true)
      (hstamp : errorStamp s'.trace = some n)
  | cleared {op : Op} {owner : Option Nat} (hl : l = .land .op .done)
      (hbusy : busy s.trace = some (op, owner))
      (hop : (op.dismisses || op.isClearError) = true)
      (hstored : s'.world.storage.proxyError = none)
      (hstanding : standing s'.trace = (standing s.trace && !op.isClearError))
      (hstamp : errorStamp s'.trace = errorStamp s.trace)

theorem Reach.errorStep (h : Reach ok (Sys.init w) s) (hs : s.next l = some s') :
    ErrorStep s l s' := by
  cases l with
  | message sender m =>
      obtain rfl := Option.some.inj hs
      split <;> exact .same (by simp) rfl rfl rfl
  | challenge details =>
      obtain rfl := Option.some.inj hs
      unfold Sys.onChallenge
      split <;> exact .same (by simp) rfl rfl rfl
  | requestDone id => exact Option.some.inj hs ▸ .same (by simp) rfl rfl rfl
  | proxyError details => exact Option.some.inj hs ▸ .same (by simp) rfl rfl rfl
  | others proxy webRTC =>
      obtain rfl := Option.some.inj hs
      obtain ⟨new, htrace, hnew⟩ := s.move_trace { s.world with
        proxy := { s.world.proxy with others := proxy }
        webRTC := { s.world.webRTC with others := webRTC } }
      refine .same (by simp) rfl ?_ ?_ <;> rw [htrace] <;>
        exact Sys.reading_next fun o ho t => by rw [hnew o ho]; rfl
  | clock now => exact Option.some.inj hs ▸ .same (by simp) rfl rfl rfl
  | dispatch t =>
      obtain ⟨kind, -, -, rfl⟩ := Sys.dispatch_eq_some hs
      exact .same (by simp) rfl rfl rfl
  | start =>
      obtain ⟨op, owner, rest, -, -, rfl⟩ := Sys.startOp_eq_some hs
      exact .started rfl rfl rfl
  | restart => exact Option.some.inj hs ▸ .restarted rfl rfl rfl
  | resume a =>
      obtain ⟨subj, p, -, ⟨v, c, k, -, rfl⟩ | ⟨v, r, -, rfl⟩⟩ := Sys.resume_eq_some hs
      · exact .same (by simp) (by simp) (by rw [Sys.suspend_trace]; rfl) (by rw [Sys.suspend_trace]; rfl)
      · exact .same (by simp) (by simp) (by rw [Sys.finish_trace]; rfl) (by rw [Sys.finish_trace]; rfl)
  | land a o =>
      obtain ⟨subj, c, k, r, w', hslot, hw, rfl⟩ := Sys.land_eq_some hs
      obtain ⟨new, hmove, hnew⟩ := s.move_trace w'
      have htrace : (s.answer a c k r w').trace = .landed a c r :: (new ++ s.trace) := by
        rw [Sys.answer_trace, hmove]
      have hstanding : standing (new ++ s.trace) = standing s.trace :=
        Sys.reading_next fun o ho t => by rw [hnew o ho]; rfl
      have hstamp : errorStamp (new ++ s.trace) = errorStamp s.trace :=
        Sys.reading_next fun o ho t => by rw [hnew o ho]; rfl
      have hbusy : BrowserVpn.busy (new ++ s.trace) = BrowserVpn.busy s.trace :=
        Sys.reading_next fun o ho t => by rw [hnew o ho]; rfl
      -- Unless it is a patch of the error, nothing happens.
      have hsame : (∀ p, c = .storageSet p → p.proxyError = none) →
          ErrorStep s (.land a o) (s.answer a c k r w') := by
        intro hset
        have hread : standing (s.answer a c k r w').trace = standing (new ++ s.trace) ∧
            errorStamp (s.answer a c k r w').trace = errorStamp (new ++ s.trace) := by
          rw [htrace]
          exact readings_landed fun p _ => hset p
        exact .same (by simp) (by rw [Sys.answer_world]; exact World.land_proxyError hw hset)
          (hread.1.trans hstanding) (hread.2.trans hstamp)
      cases c with
      | storageSet p =>
          obtain ⟨hclear, hrecord⟩ := h.mayStore hslot
          cases hp : p.proxyError with
          | none => exact hsame (by rintro p' ⟨⟩; exact hp)
          | some e =>
              -- Only the holder of the queue has such a patch.
              have hop : ∃ op, subj = .op op := by
                cases e with
                | none =>
                    obtain ⟨op, rfl, -⟩ := hclear hp
                    exact ⟨op, rfl⟩
                | some e =>
                    obtain ⟨op, n, rfl, -⟩ := hrecord e hp
                    exact ⟨op, rfl⟩
              obtain ⟨op, rfl⟩ := hop
              obtain rfl : a = .op := by
                cases a with
                | boot => cases (Sys.slot_boot hslot).1
                | op => rfl
                | task t =>
                    obtain ⟨kind, -, he⟩ := Sys.task_of_slot hslot
                    cases he
              obtain ⟨op', owner, hrun, he⟩ := Sys.slot_op hslot
              obtain rfl : op = op' := by simpa using he
              have hbusy' : BrowserVpn.busy s.trace = some (op, owner) := by rw [h.busy, hrun]; rfl
              cases o <;>
                simp only [World.land, Option.some.injEq, Prod.mk.injEq, reduceCtorEq] at hw <;>
                obtain ⟨rfl, rfl⟩ := hw
              · cases e with
                | none =>
                    obtain ⟨op', he, hop⟩ := hclear hp
                    obtain rfl : op = op' := by simpa using he
                    refine .cleared rfl hbusy' hop ?_ ?_ ?_
                    · rw [Sys.answer_world]
                      simp [Storage.set, hp]
                    · rw [htrace]
                      simp [standing, hp, hbusy, hbusy', hstanding]
                    · rw [htrace]
                      simp [errorStamp, hp, hstamp]
                | some e =>
                    obtain ⟨op', n, he, hop⟩ := hrecord e hp
                    obtain rfl : op = op' := by simpa using he
                    refine .stored (e := e) rfl hbusy' hop ?_ ?_ ?_
                    · rw [Sys.answer_world]
                      simp [Storage.set, hp]
                    · rw [htrace]
                      simp [standing, hp]
                    · rw [htrace]
                      simp [errorStamp, hp, hbusy, hbusy', hop]
              · -- A patch that was rejected.
                refine .same (by simp) ?_ ?_ ?_
                · rw [Sys.answer_world]
                · rw [htrace]
                  exact hstanding
                · rw [htrace]
                  exact hstamp
      | _ => exact hsame (by rintro p ⟨⟩)

/-- A standing error is stored, and none stands while an operation that takes it
back is under way. -/
structure Sys.ErrorKept (s : Sys) : Prop where
  stored : standing s.trace = true → s.world.storage.proxyError ≠ none
  dismissing : ∀ op owner, busy s.trace = some (op, owner) → op.dismisses = true →
    standing s.trace = false

/-- Whoever runs after a step that starts nothing ran before it. -/
theorem Sys.busy_of_next (hs : s.next l = some s') (hl : l ≠ .start) {op : Op}
    {owner : Option Nat} (hbusy : busy s'.trace = some (op, owner)) :
    busy s.trace = some (op, owner) := by
  obtain ⟨new, htrace, hof⟩ := Sys.trace_next hs
  rw [htrace] at hbusy
  exact (started_of_busy hbusy).resolve_left fun hmem => hl (hof _ hmem)

theorem Reach.errorKept (h : Reach ok (Sys.init w) s) : s.ErrorKept := by
  induction h with
  | init => exact ⟨fun h => (by cases h), fun _ _ h => (by cases h)⟩
  | @step s s' l hr hl hn ih =>
      have hbusy : ∀ {op owner}, l ≠ .start → BrowserVpn.busy s'.trace = some (op, owner) →
          op.dismisses = true → standing s.trace = false :=
        fun hl hb => ih.dismissing _ _ (Sys.busy_of_next hn hl hb)
      cases hr.errorStep hn with
      | same hl hstored hstanding _ =>
          refine ⟨?_, fun op owner hb hop => hstanding.trans (hbusy hl hb hop)⟩
          rw [hstanding, hstored]
          exact ih.stored
      | @started op owner hl hstored htrace =>
          refine ⟨?_, ?_⟩ <;> rw [htrace]
          · rw [hstored]
            exact fun h => ih.stored (Bool.and_eq_true_iff.1 h).2
          · rintro op' owner' hb hop
            obtain ⟨rfl, rfl⟩ : op = op' ∧ owner = owner' := by simpa [BrowserVpn.busy] using hb
            simp [standing, hop]
      | restarted hl hstored htrace =>
          refine ⟨?_, ?_⟩ <;> rw [htrace]
          · rw [hstored]
            exact ih.stored
          · exact fun _ _ h => by cases h
      | @stored op owner e n hl hrun hop hstored hstanding _ =>
          refine ⟨fun _ => by simp [hstored], ?_⟩
          rintro op' owner' hb hdismisses
          obtain ⟨rfl, rfl⟩ : op = op' ∧ owner = owner' := by
            simpa [hrun] using Sys.busy_of_next hn (by simp [hl]) hb
          cases op <;> simp [Op.dismisses, Op.stamp] at hdismisses hop
      | @cleared op owner hl hrun hop hstored hstanding _ =>
          -- What ran was the IP check, or nothing stood any more.
          have hnone : standing s'.trace = false := by
            rw [hstanding]
            cases hclear : op.isClearError with
            | true => simp
            | false =>
                have hdismisses : op.dismisses = true := by simpa [hclear] using hop
                simp [ih.dismissing _ _ hrun hdismisses]
          exact ⟨fun h => (by simp [hnone] at h), fun _ _ _ _ => hnone⟩

/-- Whoever looks at the storage while an error stands finds it. -/
def Found : List Obs → Prop
  | [] => True
  | o :: trace => (∀ a data, o = .landed a .storageGet (.ok data) → standing trace = true →
      data.proxyError ≠ none) ∧ Found trace

omit [Platform] [Browser] in
theorem Found.landed {a : Actor} {data : Storage} {during before : List Obs}
    (h : Found (during ++ .landed a .storageGet (.ok data) :: before))
    (hstands : standing before = true) : data.proxyError ≠ none := by
  induction during with
  | nil => exact h.1 a data rfl hstands
  | cons o during ih => exact ih h.2

omit [Platform] [Browser] in
theorem Found.append {new trace : List Obs} (h : Found trace)
    (hnew : ∀ o ∈ new, ∀ a data, o ≠ .landed a .storageGet (.ok data)) : Found (new ++ trace) := by
  induction new with
  | nil => exact h
  | cons o new ih =>
      refine ⟨fun a data ho => absurd ho (hnew o (List.mem_cons_self ..) a data), ?_⟩
      exact ih fun o' ho' => hnew o' (List.mem_cons_of_mem _ ho')

theorem Reach.found (h : Reach ok (Sys.init w) s) : Found s.trace := by
  induction h with
  | init => trivial
  | @step s s' l hr _ hn ih =>
      by_cases hland : ∃ a o, l = .land a o
      · obtain ⟨a, o, rfl⟩ := hland
        obtain ⟨subj, c, k, r, w', -, hw, rfl⟩ := Sys.land_eq_some hn
        obtain ⟨new, hmove, hnew⟩ := s.move_trace w'
        rw [Sys.answer_trace, hmove]
        refine ⟨?_, ih.append fun o ho => by rw [hnew o ho]; nofun⟩
        intro a' data ho hstands
        have hsame : standing (new ++ s.trace) = standing s.trace :=
          Sys.reading_next fun o ho t => by rw [hnew o ho]; rfl
        obtain ⟨rfl, rfl, hr'⟩ : a = a' ∧ c = .storageGet ∧ r ≍ (.ok data : Except String Storage) := by
          simpa using ho
        obtain rfl := eq_of_heq hr'
        cases o <;> simp only [World.land, Option.some.injEq, Prod.mk.injEq, reduceCtorEq] at hw
        · obtain rfl := Except.ok.inj hw.1
          exact hr.errorKept.stored (hsame ▸ hstands)
        · cases hw.1
      · obtain ⟨new, htrace, hof⟩ := Sys.trace_next hn
        rw [htrace]
        refine ih.append fun o ho a data he => hland ?_
        obtain ⟨out, hl⟩ : ∃ out, l = .land a out := by
          have hlabel := hof o ho
          rwa [he] at hlabel
        exact ⟨a, out, hl⟩

/-! ## The numbers of the errors -/

/-- The numbers of the tasks in the queue, in their order. -/
def Sys.stamps (s : Sys) : List Nat := s.entries.filterMap fun e => e.1.stamp

/-- The queue holds the errors in the order of their events, none of them older
than the error that was stored last. -/
structure Sys.Stamped (s : Sys) : Prop where
  given : ∀ n ∈ s.stamps, n ≤ s.vars.proxyErrorEpoch
  stored : ∀ n, errorStamp s.trace = some n → n ≤ s.vars.proxyErrorEpoch
  sorted : s.stamps.Pairwise (· ≤ ·)
  newer : ∀ m, errorStamp s.trace = some m → ∀ n ∈ s.stamps, m ≤ n

/-- A task that enters the queue with a number has the number of the step. -/
theorem Reach.stamps_next (h : Reach ok (Sys.init w) s) (hok : ok s l) (hs : s.next l = some s')
    (hl : l ≠ .restart) :
    s'.stamps = s.stamps ∨ s'.stamps = s.stamps ++ [s'.vars.proxyErrorEpoch] ∨
      ∃ n, s.stamps = n :: s'.stamps := by
  cases Sys.entryStep hs hl with
  | same he => exact Or.inl (by rw [Sys.stamps, he]; rfl)
  | raised _ he => exact Or.inr (Or.inl (by simp [Sys.stamps, he, Op.stamp]))
  | @ended e _ he =>
      cases hstamp : e.1.stamp with
      | none => exact Or.inl (by simp [Sys.stamps, he, hstamp])
      | some n => exact Or.inr (Or.inr ⟨n, by simp [Sys.stamps, he, hstamp]⟩)
  | @handed t op hl htrace he =>
      subst hl
      have hreach := h.step hok hs
      obtain ⟨subj, k, hslot⟩ := hreach.orderly.awaited op t (by simp [he])
      obtain ⟨kind, -, rfl⟩ := Sys.task_of_slot hslot
      have hnot := (hreach.mayHand hslot).not_proxyError
      cases op with
      | proxyError details n => cases hnot
      | authFailed n =>
          -- Only authorization failures are handed over with a number.
          obtain ⟨-, rfl⟩ := h.authFailed_raises hok hs htrace
          exact Or.inr (Or.inl (by simp [Sys.stamps, he, Op.stamp]))
      | _ => exact Or.inl (by simp [Sys.stamps, he, Op.stamp])

theorem Reach.stamped (h : Reach ok (Sys.init w) s) : s.Stamped := by
  induction h with
  | init => exact ⟨nofun, nofun, .nil, nofun⟩
  | @step s s' l hr hl hn ih =>
      by_cases hrestart : l = .restart
      · subst hrestart
        obtain rfl := Option.some.inj hn
        exact ⟨nofun, nofun, .nil, nofun⟩
      have hraises := Sys.raises_next hn hrestart
      have hgiven : ∀ n ∈ s'.stamps, n ≤ s'.vars.proxyErrorEpoch := by
        intro n hmem
        rcases hr.stamps_next hl hn hrestart with he | he | ⟨m, he⟩
        · exact (ih.given n (he ▸ hmem)).trans hraises
        · rw [he, List.mem_append, List.mem_singleton] at hmem
          exact hmem.elim (fun hmem => (ih.given n hmem).trans hraises) fun he => he.le
        · exact (ih.given n (he ▸ List.mem_cons_of_mem _ hmem)).trans hraises
      have hsorted : s'.stamps.Pairwise (· ≤ ·) := by
        rcases hr.stamps_next hl hn hrestart with he | he | ⟨m, he⟩
        · exact he ▸ ih.sorted
        · rw [he, List.pairwise_append]
          refine ⟨ih.sorted, List.pairwise_singleton .., fun n hmem m hm => ?_⟩
          rw [List.mem_singleton.1 hm]
          exact (ih.given n hmem).trans hraises
        · exact (List.pairwise_cons.1 (he ▸ ih.sorted)).2
      -- Where nothing is stored, what enters the queue is newer.
      have hnewer : ∀ m, errorStamp s.trace = some m → ∀ n ∈ s'.stamps, m ≤ n := by
        intro m hm n hmem
        rcases hr.stamps_next hl hn hrestart with he | he | ⟨m', he⟩
        · exact ih.newer m hm n (he ▸ hmem)
        · rw [he, List.mem_append, List.mem_singleton] at hmem
          refine hmem.elim (ih.newer m hm n) ?_
          rintro rfl
          exact (ih.stored m hm).trans hraises
        · exact ih.newer m hm n (he ▸ List.mem_cons_of_mem _ hmem)
      have hkept : errorStamp s'.trace = errorStamp s.trace → s'.Stamped := fun hsame =>
        ⟨hgiven, fun n hstamp => (ih.stored n (hsame ▸ hstamp)).trans hraises, hsorted,
          fun m hm => hnewer m (hsame ▸ hm)⟩
      cases hr.errorStep hn with
      | same _ _ _ hsame => exact hkept hsame
      | started _ _ htrace => exact hkept (by rw [htrace]; rfl)
      | restarted hl => exact absurd hl hrestart
      | cleared _ _ _ _ _ hsame => exact hkept hsame
      | @stored op owner e m hland hbusy hop _ _ hsame =>
          -- The running task heads the queue.
          obtain ⟨rest, hrest⟩ : ∃ rest, s.stamps = m :: rest := by
            rw [hr.busy] at hbusy
            rw [Sys.stamps, Sys.entries, hbusy]
            exact ⟨_, by simp [hop]; rfl⟩
          have hsame' : s'.stamps = s.stamps := by
            cases Sys.entryStep hn hrestart with
            | same he => rw [Sys.stamps, he]; rfl
            | raised hl => cases hland.symm.trans hl
            | handed hl => cases hland.symm.trans hl
            | ended hl => cases hland.symm.trans hl
          have hm : ∀ n, errorStamp s'.trace = some n → n = m := by
            intro n hn
            rw [hsame] at hn
            exact (Option.some.inj hn).symm
          refine ⟨hgiven, fun n hn => ?_, hsorted, fun n hn n' hmem => ?_⟩
          · rw [hm n hn]
            exact (ih.given m (by simp [hrest])).trans hraises
          · rw [hsame', hrest] at hmem
            rw [hm n hn]
            rcases List.mem_cons.1 hmem with rfl | hmem
            · exact Nat.le_refl _
            · exact (List.pairwise_cons.1 (hrest ▸ ih.sorted)).1 n' hmem

/-! ## The IP check -/

/-- The error that a check is about to clear has a number from before the check,
and does not speak of a direct connection. -/
theorem Reach.mayClear (h : Reach ok (Sys.init w) s) {check : IpCheck} {p : Patch}
    {k : Except String Unit → Js Result}
    (hslot : s.slot .op = some (.op (.clearError check), .awaiting (.storageSet p) k)) :
    s.world.storage.proxyError = some check.previousError ∧
      check.previousError.possibleDirect = false ∧
      ∀ n, errorStamp s.trace = some n → n ≤ check.errorEpoch := by
  induction h with
  | init => simp [Sys.slot, Sys.init, Sys.fresh] at hslot
  | @step s s' l hr hl hn ih =>
      cases Sys.slotStep hn hslot with
      | kept ha hrestart hslot =>
          -- The check holds the queue: nobody else stores anything.
          obtain ⟨hstored, hindirect, hstamp⟩ := ih hslot
          cases hr.errorStep hn with
          | same _ hsame _ hsame' => exact ⟨hsame.trans hstored, hindirect, hsame' ▸ hstamp⟩
          | started hl hsame htrace =>
              rw [htrace]
              exact ⟨hsame.trans hstored, hindirect, hstamp⟩
          | restarted hl => exact absurd hl hrestart
          | stored hl => exact absurd (by rw [hl]; rfl) ha
          | cleared hl => exact absurd (by rw [hl]; rfl) ha
      | suspended hready hp =>
          obtain ⟨x, ⟨-, hsubj, hduring⟩, hmay⟩ :=
            historyOutline_coherent.calls hr.ipChecks hready (Or.inr ⟨check, rfl⟩) hp
          obtain ⟨-, hhere, -, hclear⟩ := hmay.2.2 check _ hsubj rfl
          obtain rfl := hduring.here hhere
          rw [Sys.suspend_world, Sys.suspend_trace]
          refine ⟨hclear.stored, hclear.indirect, fun n hstamp => ?_⟩
          rw [← hclear.unchanged.raises]
          exact hr.stamped.stored n hstamp

/-- An IP check has the queue, and the error it finds there was raised before it
began. -/
structure Sys.ChecksOld (s : Sys) (owner : Option Nat) : Prop where
  check : ∃ t during before, owner = some t ∧ kindOf t s.trace = some (.message .testIp) ∧
    s.trace = during ++ before ∧ Obs.restarted ∉ during ∧ callsOf (.task t) before = 0 ∧
    ∀ n, errorStamp s.trace = some n → Obs.errorRaised n ∉ during ∧
      ∀ u, Obs.issued (.task u) (.exclusive (.authFailed n)) ∉ during
  indirect : ∃ e, s.world.storage.proxyError = some e ∧ e.possibleDirect = false

theorem Reach.checksOld (h : Reach ok (Sys.init w) s) {check : IpCheck} {owner : Option Nat}
    {p : Patch} {k : Except String Unit → Js Result}
    (hrun : s.running = some ⟨.clearError check, owner, .awaiting (.storageSet p) k⟩) :
    s.ChecksOld owner := by
  have hslotOp : s.slot .op = some (.op (.clearError check), .awaiting (.storageSet p) k) := by
    simp [Sys.slot, hrun]
  obtain ⟨hstored, hindirect, hstamp⟩ := h.mayClear hslotOp
  have hentry : (Op.clearError check, owner) ∈ s.entries := by simp [Sys.entries, hrun]
  obtain ⟨t, rfl⟩ : ∃ t, owner = some t := by
    cases owner with
    | some t => exact ⟨t, rfl⟩
    | none => cases h.owner_isSome _ hentry rfl
  obtain ⟨subj, k', hslot⟩ := h.orderly.awaited _ t hentry
  obtain ⟨kind, -, rfl⟩ := Sys.task_of_slot hslot
  obtain rfl := (h.mayHand hslot).testIp
  obtain ⟨x, ⟨hactor, -, hfits, hcall⟩, -⟩ := h.ipChecks.awaiting hslot (Or.inl rfl)
  obtain ⟨y, hmay, rfl⟩ := hcall _ _ hslot
  obtain ⟨start, s₀, hbegan, -, -, herror⟩ := hmay.2.1 check rfl
  have hlater : Later ok s₀ s := Reach.trans hbegan.later hfits.before.later
  obtain ⟨new, hpassed⟩ := Later.passed hlater
  have hme : y.me = .task t := hactor
  refine ⟨⟨t, new, s₀.trace, rfl, h.kindOf hslot, hpassed.trace, hpassed.alive, ?_, ?_⟩,
    _, hstored, hindirect⟩
  · rw [← hme]
    exact hbegan.first
  · intro n hn
    have hold := hstamp n hn
    rw [herror, ← hbegan.vars] at hold
    have hafter := fun hmem => Later.raised_after hbegan.reach hlater hpassed.trace (n := n) hmem
    refine ⟨fun hmem => ?_, fun u hmem => ?_⟩
    · have hlt := hafter (Or.inl hmem)
      omega
    · have hlt := hafter (Or.inr ⟨u, hmem⟩)
      omega

/-! ## Kept -/

/-- The latest look of `a` at the storage came while no error stood, and found
none. -/
def SawNone (a : Actor) (trace : List Obs) : Prop :=
  ∃ during before data, trace = during ++ .landed a .storageGet (.ok data) :: before ∧
    (∀ o ∈ during, o.begins a = false ∧ o.readBy a = none) ∧
    standing before = false ∧ data.proxyError = none

omit [Platform] [Browser] in
/-- Where the latest read of a function has landed. -/
theorem landed_of_readsOf {a : Actor} {trace : List Obs} {data : Storage} {rest : List Storage}
    (h : readsOf a trace = data :: rest) :
    ∃ during before, trace = during ++ .landed a .storageGet (.ok data) :: before ∧
      ∀ o ∈ during, o.begins a = false ∧ o.readBy a = none := by
  induction trace with
  | nil => cases h
  | cons o trace ih =>
      cases hbegins : o.begins a with
      | true => simp [readsOf_begins hbegins] at h
      | false =>
          rw [readsOf_cons hbegins] at h
          cases hread : o.readBy a with
          | none =>
              rw [hread] at h
              obtain ⟨during, before, rfl, hduring⟩ := ih h
              refine ⟨o :: during, before, rfl, fun o' ho' => ?_⟩
              rcases List.mem_cons.1 ho' with rfl | ho'
              · exact ⟨hbegins, hread⟩
              · exact hduring o' ho'
          | some data' =>
              rw [hread] at h
              obtain rfl : data' = data := (List.cons.inj h).1
              refine ⟨[], trace, ?_, by simp⟩
              unfold Obs.readBy at hread
              split at hread
              · split at hread
                · rename_i hme
                  rw [hme, Option.some.inj hread]
                  rfl
                · cases hread
              · cases hread

theorem Reach.sawNone (h : Reach ok (Sys.init w) s) {a : Actor} {x : Told}
    (hreads : readsOf a s.trace = x.reads) (hclear : x.Clear) : SawNone a s.trace := by
  obtain ⟨data, hhead, hnone⟩ := hclear
  obtain ⟨rest, hrest⟩ : ∃ rest, readsOf a s.trace = data :: rest :=
    ⟨_, hreads.trans (List.eq_cons_of_mem_head? hhead)⟩
  obtain ⟨during, before, htrace, hduring⟩ := landed_of_readsOf hrest
  refine ⟨during, before, data, htrace, hduring, ?_, hnone⟩
  by_contra hstands
  exact (htrace ▸ h.found).landed (by simpa using hstands) hnone

/-- The observation that a step adds comes from its label. -/
theorem Sys.of_head {o : Obs} (hs : s.next l = some s') (htrace : s'.trace = o :: s.trace) :
    o.Of l := by
  obtain ⟨new, hnew, hof⟩ := trace_next hs
  have hone : [o] = new := List.append_cancel_right (htrace.symm.trans hnew)
  exact hof o (by simp [← hone])

/-- What is kept of proxy errors in the step from `s` to `s'`. -/
structure ErrorsKept (s : Sys) (l : Label) (s' : Sys) : Prop where
  /-- An error that stands is stored. -/
  stored : standing s.trace = true → s.world.storage.proxyError ≠ none
  /-- Errors are stored by the tasks of their events, in the order of the events. -/
  recorded : ∀ e, s'.world.storage.proxyError = some e → s.world.storage.proxyError ≠ some e →
    l = .land .op .done ∧ ∃ op owner n, busy s.trace = some (op, owner) ∧ op.stamp = some n ∧
      ∀ m, errorStamp s.trace = some m → m ≤ n
  /-- The user's operations take them back, and IP checks those that were raised
  before the check. -/
  lost : s.world.storage.proxyError ≠ none → s'.world.storage.proxyError = none →
    l = .land .op .done ∧ ∃ op owner, busy s.trace = some (op, owner) ∧
      (op.dismisses = true ∨ op.isClearError = true ∧ s.ChecksOld owner)
  /-- Whoever looks at the storage while an error stands finds it. -/
  found : Found s'.trace
  /-- A status that finds an error is not active. -/
  inactive : ∃ k, status = .call .storageGet k ∧ ∀ data, data.proxyError ≠ none →
    (k (.ok data)).Settles fun r => ∀ st, r = .ok st → st.state ≠ .active
  /-- What is reported as active was looked up while no error stood. -/
  reported : ∀ a st, (a = .op ∨ ∃ t, a = .task t ∧ kindOf t s.trace = some (.message .getState)) →
    s'.trace = .ended a (.ok (.status st)) :: s.trace → st.state = .active → SawNone a s.trace
  shown : ∀ a, s'.trace = .issued a (.setBadgeText .on) :: s.trace → SawNone a s.trace

/-- In every run, an error that was stored stays until the user takes it back or
an IP check that began after it clears it, and nobody reports or shows the route
as active on a look at the storage that was taken in between. -/
theorem proxy_errors_kept (h : Reach ok (Sys.init w) s) (hl : ok s l)
    (hs : s.next l = some s') : ErrorsKept s l s' where
  stored := h.errorKept.stored
  found := (h.step hl hs).found
  inactive := status_settles
  recorded := by
    intro e he hne
    cases h.errorStep hs with
    | same _ hstored => exact absurd (hstored ▸ he) hne
    | started _ hstored => exact absurd (hstored ▸ he) hne
    | restarted _ hstored => exact absurd (hstored ▸ he) hne
    | stored hl hbusy hop =>
        refine ⟨hl, _, _, _, hbusy, hop, fun m hm => h.stamped.newer m hm _ ?_⟩
        rw [h.busy] at hbusy
        rw [Sys.stamps, Sys.entries, hbusy]
        simp [hop]
    | cleared _ _ _ hstored => simp [hstored] at he
  lost := by
    intro hsome hnone
    cases h.errorStep hs with
    | same _ hstored => exact absurd (hstored ▸ hnone) hsome
    | started _ hstored => exact absurd (hstored ▸ hnone) hsome
    | restarted _ hstored => exact absurd (hstored ▸ hnone) hsome
    | stored _ _ _ hstored => simp [hstored] at hnone
    | @cleared op owner hl hbusy hop =>
        refine ⟨hl, op, owner, hbusy, ?_⟩
        rw [Bool.or_eq_true] at hop
        refine hop.imp_right fun hclear => ⟨hclear, ?_⟩
        subst hl
        obtain ⟨subj, c, k, r, w', hslot, hw, rfl⟩ := Sys.land_eq_some hs
        obtain ⟨op', owner', hrun, rfl⟩ := Sys.slot_op hslot
        obtain ⟨rfl, rfl⟩ : op' = op ∧ owner' = owner := by
          rw [h.busy, hrun] at hbusy
          simpa using hbusy
        cases op' with
        | clearError check =>
            cases c with
            | storageSet p => exact h.checksOld hrun
            | _ =>
                rw [Sys.answer_world, World.land_proxyError hw (by rintro p ⟨⟩)] at hnone
                exact absurd hnone hsome
        | _ => cases hclear
  reported := by
    rintro a st hown htrace hactive
    obtain rfl : l = .resume a := Sys.of_head hs htrace
    obtain ⟨subj, p, hslot, ⟨v, c, k, -, rfl⟩ | ⟨v, r, hp, rfl⟩⟩ := Sys.resume_eq_some hs
    · simp at htrace
    · obtain rfl : r = .ok (.status st) := by simpa using htrace
      obtain ⟨x, ⟨-, -, hreads, -⟩, hpost⟩ :=
        toldOutline_coherent.finished h.told hslot trivial hp
      refine h.sawNone hreads (hpost ?_ st rfl hactive)
      rintro kind rfl
      rcases hown with rfl | ⟨t, rfl, hkind⟩
      · obtain ⟨op, owner, -, he⟩ := Sys.slot_op hslot
        cases he
      · obtain rfl : kind = .message .getState :=
          Option.some.inj ((h.kindOf hslot).symm.trans hkind)
        rfl
  shown := by
    rintro a htrace
    obtain rfl : l = .resume a := Sys.of_head hs htrace
    obtain ⟨subj, p, hslot, ⟨v, c, k, hp, rfl⟩ | ⟨v, r, -, rfl⟩⟩ := Sys.resume_eq_some hs
    · obtain rfl : c = .setBadgeText .on := by simpa using htrace
      obtain ⟨x, ⟨-, -, hreads, -⟩, hmay⟩ := toldOutline_coherent.calls h.told hslot trivial hp
      exact h.sawNone hreads (hmay.2 rfl)
    · simp at htrace

end

section

attribute [local instance] Platform.ascii Browser.sample

/-- A proxy error that an IP check clears. -/
theorem proxy_errors_kept_sample :
    ∃ s s' : Sys, standing s.trace = true ∧ s'.world.storage.proxyError = none ∧
      ErrorsKept s (.land .op .done) s' := by
  obtain ⟨s, h, hstands, hnext⟩ := Reach.of_follow (fun _ _ => true) (World.sample (.free .system))
    (turns .boot 46 ++ [.resume .boot, .proxyError ⟨none, some true⟩, .start] ++ turns .op 22 ++
      [.resume .op, .message (js "extension") .testIp, .dispatch 1] ++ turns (.task 1) 15 ++
      [.resume (.task 1), .land (.task 1) (.flag true), .resume (.task 1),
        .land (.task 1) (.text (some (js "192.0.2.1")))] ++ turns (.task 1) 15 ++
      [.resume (.task 1), .start] ++ turns .op 17 ++ [.resume .op])
    (fun s => standing s.trace = true ∧ (s.next (.land .op .done)).any
      (fun s' => s'.world.storage.proxyError.isNone) = true)
    (by decide +kernel)
  obtain ⟨s', hs, hnone⟩ := (Option.any_eq_true _ _).1 hnext
  exact ⟨s, s', hstands, Option.isNone_iff_eq_none.1 hnone, proxy_errors_kept h rfl hs⟩

end

end BrowserVpn
