import Cohort.Proofs.Session.Counts
import Cohort.Report

/-!
# Reports — the summary of a run says what became of the documents

A script is a run of requests, so the session that it leaves is reachable. Its summary counts every
document in its group, and the bytes that were held at most were within the memory of the run.
-/

namespace Cohort.Report

variable {shard : Shard} {config : Config} {hand : Nat}

/-- A script that goes through leads from one reachable session to another. -/
theorem reachable_execute {position : Nat} {s s' : Session} {script : Script} {steps : List Step}
    (hs : Live.Reachable shard config ⟨s, hand⟩)
    (h : execute position s script = .ok (steps, s')) :
    Live.Reachable shard config ⟨s', hand⟩ ∧ s'.ledger.own.limit = s.ledger.own.limit := by
  induction script generalizing position s steps with
  | nil =>
    cases h
    exact ⟨hs, rfl⟩
  | cons command rest ih =>
    rw [execute] at h
    split at h
    · cases h
    · rename_i outcome t hrun
      obtain ⟨⟨later, u⟩, hrest, h⟩ := exists_of_bind_ok h
      cases h
      have hstep : Live.Step ⟨s, hand⟩ ⟨t, hand⟩ := by
        refine .answered (r := .command command) (a := .outcome outcome) ?_
        show EStateM.map _ command.apply s = _
        simp only [EStateM.map, hrun]
      obtain ⟨hu, hlimit⟩ := ih (.step hs hstep) hrest
      exact ⟨hu, hlimit.trans (hstep.heeds hs.sound).limit_eq⟩

/-- What is explained only where it fails went through. -/
theorem ok_of_mapError {ε ε' α : Type} {x : Except ε α} {f : ε → ε'} {a : α}
    (h : x.mapError f = .ok a) : x = .ok a := by
  cases x with
  | error e => cases h
  | ok b =>
    cases h
    rfl

theorem limit_start {l : Memory.Ledger} {s : Session} (h : Session.start shard l config = .ok s) :
    s.ledger.own.limit = l.own.limit := by
  have hcreate : (Memory.BufferPool.create config.bufferSize config.pooledBuffers).KeepsLimit := by
    unfold Memory.BufferPool.create
    split
    · exact Memory.Charge.keepsLimit_bind (Memory.Charge.keepsLimit_throw _) fun _ =>
        Memory.Charge.keepsLimit_bind (Memory.Charge.keepsLimit_claim _) fun _ =>
          Memory.Charge.keepsLimit_pure _
    · exact Memory.Charge.keepsLimit_bind (Memory.Charge.keepsLimit_claim _) fun _ =>
        Memory.Charge.keepsLimit_pure _
  obtain ⟨-, -, _, _, hrun, rfl⟩ := Session.start_inv h
  exact (hcreate l).ok_of hrun

/-- What a session with a right count is summarized to. -/
theorem ofSession_eq {s : Session} (h : s.Current) : ∃ s', Summary.ofSession s =
    .ok ⟨s.numDocs, s.numGroups, s.grouping.countGroup 0, s.grouping.groupDocCounts,
      s.ledger.own.peak⟩ s' := by
  refine ⟨{ s with zeroCount := some (s.grouping.countGroup 0) }, ?_⟩
  show (Session.zeroGroupDocs >>= _) s = _
  simp only [bind, EStateM.bind, h.zeroGroupDocs_eq]
  rfl

/-- What is known of the summary of the session that a run leaves, by what is printed of it. -/
structure Summarized (shard : Shard) (memory : Nat) (final : Session) : Prop where
  length_eq : final.grouping.groupDocCounts.length = final.numGroups
  getElem?_eq : ∀ group < final.numGroups,
    final.grouping.groupDocCounts[group]? = some (final.grouping.docsIn group).card
  head?_eq : final.grouping.groupDocCounts.head? = some (final.grouping.docsIn 0).card
  sum_eq : final.grouping.groupDocCounts.sum = shard.numDocs
  peak_le : final.ledger.own.peak ≤ memory

theorem summarized_execute {memory position : Nat} {first final : Session} {script : Script}
    {steps : List Step}
    (hstart : Session.start shard (.fresh memory (some memory)) config = .ok first)
    (hrun : execute position first script = .ok (steps, final)) :
    Summarized shard memory final := by
  obtain ⟨hreach, hlimit⟩ := reachable_execute
    (.start (Memory.Ledger.coherent_fresh memory (some memory)) hstart) hrun
  have hwf := hreach.sound.wellFormed
  refine ⟨Grouping.length_groupDocCounts _, fun _ hgroup => Grouping.getElem?_groupDocCounts hgroup,
    ?_, Grouping.sum_groupDocCounts hwf, ?_⟩
  · rw [List.head?_eq_getElem?, Grouping.getElem?_groupDocCounts hwf.numGroups_pos]
  · have hpeak := hreach.sound.coherent.peak_le_limit
    rw [hlimit, limit_start hstart] at hpeak
    exact hpeak

/-- In every reachable session, which any calls may have led to, answered or refused, the number of
documents in group 0 is given right, however often it is asked for, and the counts of all groups
are right and leave no document out. So a run prints, after its steps, the members of a summary that
has the first of the counts for the documents filtered out, counts that amount to all documents, and
no more memory than the run was allowed, whatever codec reads the sources and writes the text. -/
theorem counts_current :
    (∀ (shard : Shard) (config : Config) (x : Live), Live.Reachable shard config x →
      Session.zeroGroupDocs x.session = .ok (x.session.grouping.docsIn 0).card
        { x.session with zeroCount := some (x.session.grouping.docsIn 0).card } ∧
      x.session.grouping.groupDocCounts.length = x.session.numGroups ∧
      (∀ group < x.session.numGroups, x.session.grouping.groupDocCounts[group]? =
        some (x.session.grouping.docsIn group).card) ∧
      x.session.grouping.groupDocCounts.sum = shard.numDocs) ∧
    ∀ (codec : Json.Codec) (source script : Source) (config? : Option Source) (memory : Nat)
      (text : String), runBy codec source script config? memory = .ok text →
      ∃ (shard : Shard) (config : Config) (commands : Script) (steps : List Step)
        (first final : Session),
        readShard codec source = .ok shard ∧ readConfig codec config? = .ok config ∧
        readScript codec script = .ok commands ∧
        Session.start shard (.fresh memory (some memory)) config = .ok first ∧
        execute 0 first commands = .ok (steps, final) ∧
        text = String.join (steps.map fun s => codec.render s.toJson ++ "\n") ++
          codec.pretty (.obj [
            ("num_docs", .int shard.numDocs),
            ("num_groups", .int final.numGroups),
            ("filtered_docs", .int (final.grouping.docsIn 0).card),
            ("group_doc_counts",
              .arr (final.grouping.groupDocCounts.map fun n : Nat => Json.int n)),
            ("max_memory_used", .int final.ledger.own.peak)]) ++ "\n" ∧
        Summarized shard memory final := by
  refine ⟨fun shard config x h => ?_, fun codec source script config? memory text h => ?_⟩
  · rw [← Grouping.countGroup_eq]
    refine ⟨h.current.zeroGroupDocs_eq, Grouping.length_groupDocCounts _,
      fun _ hgroup => Grouping.getElem?_groupDocCounts hgroup, ?_⟩
    exact Grouping.sum_groupDocCounts h.sound.wellFormed
  · unfold runBy at h
    obtain ⟨shard, hshard, h⟩ := exists_of_bind_ok h
    obtain ⟨config, hconfig, h⟩ := exists_of_bind_ok h
    obtain ⟨commands, hscript, h⟩ := exists_of_bind_ok h
    obtain ⟨first, hstart, h⟩ := exists_of_bind_ok h
    obtain ⟨⟨steps, final⟩, hrun, h⟩ := exists_of_bind_ok h
    have hstart := ok_of_mapError hstart
    obtain ⟨hreach, -⟩ := reachable_execute
      (.start (Memory.Ledger.coherent_fresh memory (some memory)) hstart) hrun
    obtain ⟨s', hsummary⟩ := ofSession_eq hreach.current
    have hdocs : final.numDocs = shard.numDocs := hreach.sound.wellFormed.len_eq
    simp only [hsummary] at h
    refine ⟨shard, config, commands, steps, first, final, hshard, hconfig, hscript, hstart, hrun,
      ?_, summarized_execute hstart hrun⟩
    rw [← Grouping.countGroup_eq, ← hdocs]
    exact (Except.ok.inj h).symm

/-- Three documents with their ages. -/
def agesSource : Source :=
  ⟨"ages.json", some "\x7b\"num_docs\":3,\"int_fields\":\x7b\"age\":[10,20,20]\x7d\x7d"⟩

/-- Sends age 20 to group 2 and the others to group 0. -/
def splitSource : Source := ⟨"split.json", some "[[\"int_or\",\"age\",[20],1,0,2]]"⟩

/-- One document is filtered out and two are in group 2, and that is what is printed. -/
theorem counts_current_ages :
    Session.zeroGroupDocs Live.divided = .ok 1 { Live.divided with zeroCount := some 1 } ∧
    ∃ text, run agesSource splitSource none 40000 = .ok text ∧
      ∃ (steps : List Step) (final : Session),
        text = String.join (steps.map fun s => s.toJson.render ++ "\n") ++
          (Json.obj [("num_docs", .int 3), ("num_groups", .int 3), ("filtered_docs", .int 1),
            ("group_doc_counts", .arr [.int 1, .int 0, .int 2]),
            ("max_memory_used", .int final.ledger.own.peak)]).pretty ++ "\n" ∧
        (final.grouping.docsIn 0).card = 1 ∧ (final.grouping.docsIn 2).card = 2 ∧
        final.ledger.own.peak ≤ 40000 := by
  have hdivided := (counts_current.1 _ _ _ Live.reachable_divided).1
  have hok : (run agesSource splitSource none 40000).isOk = true := by decide +kernel
  cases hrun : run agesSource splitSource none 40000 with
  | error e =>
    rw [hrun] at hok
    cases hok
  | ok text =>
    obtain ⟨shard, config, commands, steps, first, final, hshard, hconfig, hscript, hstart, hexec,
      htext, hfinal⟩ := counts_current.2 .standard _ _ _ _ _ hrun
    -- what the sources are read as decides where the session ends
    have heval : (do
        let shard ← readShard .standard agesSource
        let config ← readConfig .standard none
        let commands ← readScript .standard splitSource
        let first ← (Session.start shard (.fresh 40000 (some 40000)) config).mapError (explain "")
        let done ← execute 0 first commands
        return (shard.numDocs, done.2.numGroups, done.2.grouping.groupDocCounts) :
          Except Stop (Nat × Nat × List Nat)).toOption = some (3, 3, [1, 0, 2]) := by
      decide +kernel
    simp only [bind, Except.bind, hshard, hconfig, hscript, hstart, Except.mapError, hexec, pure,
      Except.pure, Except.toOption, Option.some_inj, Prod.mk.injEq] at heval
    obtain ⟨hdocs, hgroups, hcounts⟩ := heval
    have h0 := hfinal.getElem?_eq 0 (hgroups ▸ by decide)
    have h2 := hfinal.getElem?_eq 2 (hgroups ▸ by decide)
    rw [hcounts] at h0 h2
    have h0 : 1 = (final.grouping.docsIn 0).card := Option.some_inj.mp h0
    have h2 : 2 = (final.grouping.docsIn 2).card := Option.some_inj.mp h2
    rw [hdocs, hgroups, hcounts, ← h0] at htext
    exact ⟨hdivided, text, rfl, steps, final, htext, h0.symm, h2.symm, hfinal.peak_le⟩

end Cohort.Report
