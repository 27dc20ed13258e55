import Cohort.Proofs.Regex.Enclosed
import Cohort.Proofs.Session.SplitOutcomes

/-!
# Outcomes of splits by a pattern — whole strings

A split by a pattern writes the text of the pattern into a group between the anchors of a string,
and asks which strings have a match of that. What that comes to is told for any engine: it is a
split by what the engine makes of the enclosed text. Where the engine encloses the text, these are
the strings that the pattern matches as a whole, and the text is refused if and only if it is no
pattern. The standard engine encloses self-contained texts, but not all.
-/

namespace Cohort

open Regex (Engine Node SelfContained compile?)

/-- A self-contained text is compiled to the same pattern between anchors. -/
theorem Regex.encloses_standard {pattern : String} (hp : SelfContained pattern) :
    Engine.standard.Encloses pattern := by
  have hwhole := (compile?_enclosed_iff pattern).mpr hp
  refine ⟨?_, fun whole hw re hre text => ?_⟩
  · show (compile? ("^(?:" ++ pattern ++ ")$")).isSome = (compile? pattern).isSome
    rw [hwhole, Option.isSome_map]
  · have hw : compile? ("^(?:" ++ pattern ++ ")$") = some whole := hw
    have hre : compile? pattern = some re := hre
    rw [hwhole, hre] at hw
    cases hw
    exact Node.isMatch_anchored re text

/-- A regroup whose pass can only be refused is refused, and leaves what the pass leaves. -/
theorem Call.refused_regroup {s : Session} {shard : Shard} {config : Config} {hand : Nat}
    {body : Session → Feed → Pass Nat} {e : Error} (hs : s.Sound shard config 1 hand)
    (h : ∀ t : Session, (body t ⟨shard, config.bufferSize⟩).Completes s.grouping
      (fun _ _ => False) (fun e' g' => e' = e ∧ g' = s.grouping) False) :
    ∃ s', Session.regroup body s = .error (.refused e) s' ∧ s'.grouping = s.grouping := by
  have hends := Call.ends_regroup_of_completes hs fun t _ => h t
  cases hr : Session.regroup body s with
  | ok n s' => exact (hends.ok_of hr).1.elim
  | error e' s' =>
    cases e' with
    | broken => exact (hends.err_of hr).elim
    | refused e' =>
      obtain ⟨rfl, hgrouping⟩ := hends.err_of hr
      exact ⟨s', rfl, hgrouping⟩

namespace Live

variable {shard : Shard} {config : Config} {x : Live} {engine : Engine} {pattern : String}

/-- With one group left, what compiles in the group between the anchors splits it. -/
theorem Reachable.splits_regexBy (h : Reachable shard config x) (hb : shard.Built)
    (htwo : x.session.numGroups = 2) (field : String) (split : Split) {re : engine.Pattern}
    (hre : engine.enclosed? pattern = some re) :
    Call.Splits split (fun d => (shard.stringValues field d).any (engine.isMatch re))
      (Session.regexBy engine field pattern split) x.session := by
  have hsplits : Regroup.Splits split
      (fun d => (shard.stringValues field d).any (engine.isMatch re))
      (Pass.unlessFilteredOut fun _ => Regroup.splitByPostings ⟨shard, config.bufferSize⟩
        (((shard.stringPostings field).entries.filter fun e => engine.isMatch re e.1).map (·.2))
        split)
      x.session.grouping :=
    Regroup.splits_byValue (h.counted hb) (hb.ascending.stringPostings field) h.bufferSize_pos
      (engine.isMatch re) split
  have hone : ¬ 2 < x.session.grouping.numGroups := Nat.not_lt_of_le (Nat.le_of_eq htwo)
  refine Call.splits_of_splits h.sound fun _ => Pass.completes_bind (Pass.completes_grouping ?_)
  rw [if_neg hone]
  simp only [hre]
  exact hsplits

/-- How a split may end that is to tell the documents of the target apart by their strings: they go
where `test` of one of their strings sends them, or there is too little memory, or there is no id
left for the number of groups. -/
structure DividesBy (x : Live) (shard : Shard) (field : String) (split : Split)
    (test : String → Bool) (call : Call Nat) : Prop where
  moved : ∀ n s', call x.session = .ok n s' → ∀ d < shard.numDocs, ∃ group,
    x.session.grouping.get? d = some group ∧ s'.grouping.get? d = some
      (if group = split.target then
        if ∃ t ∈ shard.stringValues field d, test t then split.positive else split.negative
      else group)
  refused : ∀ e s', call x.session = .error (.refused e) s' → ∃ shortage, e = .outOfMemory shortage
  broken : ∀ s', call x.session = .error .broken s' → maxId ≤ split.maxGroup

/-- It is refused as no pattern, and the groups stay. -/
def RefusesPattern (x : Live) (pattern : String) (call : Call Nat) : Prop :=
  ∃ s', call x.session = .error (.refused (.invalidRegex pattern)) s' ∧
    s'.grouping = x.session.grouping

theorem DividesBy.congr {field : String} {split : Split} {test test' : String → Bool}
    {call : Call Nat} (h : x.DividesBy shard field split test call) (heq : ∀ t, test t = test' t) :
    x.DividesBy shard field split test' call :=
  (funext heq : test = test') ▸ h

theorem Reachable.dividesBy_regexBy (h : Reachable shard config x) (hb : shard.Built)
    (htwo : x.session.numGroups = 2) (field : String) (split : Split) {re : engine.Pattern}
    (hre : engine.enclosed? pattern = some re) :
    x.DividesBy shard field split (engine.isMatch re)
      (Session.regexBy engine field pattern split) := by
  have hsplits := h.splits_regexBy hb htwo field split hre
  refine ⟨fun n s' hr d hd => ?_, fun e s' hr => hsplits.err_of hr, fun s' hr => ?_⟩
  · obtain ⟨group, hgroup⟩ := Grouping.get?_of_lt_len (h.sound.wellFormed.len_eq.symm ▸ hd)
    refine ⟨group, hgroup, (hsplits.get?_of_ok hr hgroup).trans (congrArg some ?_)⟩
    rw [if_pos (by omega)]
    unfold Split.destination
    simp only [List.any_eq_true]
  · exact (Call.concludes_regexBy h.sound hb.ascending (h.numGroups_le hb) engine field pattern
      split).err_of hr

/-- What does not compile there is refused before anything is changed. -/
theorem Reachable.refuses_regexBy (h : Reachable shard config x)
    (htwo : x.session.numGroups = 2) (field : String) (split : Split)
    (hre : engine.enclosed? pattern = none) :
    x.RefusesPattern pattern (Session.regexBy engine field pattern split) := by
  have htwo' : x.session.grouping.numGroups = 2 := htwo
  refine Call.refused_regroup h.sound fun _ => Pass.completes_bind (Pass.completes_grouping ?_)
  rw [htwo', if_neg (Nat.lt_irrefl 2)]
  refine Pass.completes_unlessFilteredOut (fun hn => ?_) fun _ => ?_
  · omega
  · simp only [hre]
    exact Pass.completes_refusal ⟨rfl, rfl⟩

/-- While one group is left, a split by a pattern tells the documents of the target apart by what
the engine makes of the enclosed text, which is refused as no pattern if it is none there. If the
engine encloses the text, documents pass that hold a string which the pattern matches as a whole,
and the text is refused as no pattern just if it is none alone. -/
theorem Reachable.regex_meaning (h : Reachable shard config x) (hb : shard.Built)
    (htwo : x.session.numGroups = 2) (engine : Engine) (field pattern : String) (split : Split) :
    (∀ whole, engine.enclosed? pattern = some whole →
      x.DividesBy shard field split (engine.isMatch whole)
        (Session.regexBy engine field pattern split)) ∧
    (engine.enclosed? pattern = none →
      x.RefusesPattern pattern (Session.regexBy engine field pattern split)) ∧
    (engine.Encloses pattern →
      (∀ re, engine.compile? pattern = some re →
        x.DividesBy shard field split (engine.matchesAll re)
          (Session.regexBy engine field pattern split)) ∧
      (engine.compile? pattern = none →
        x.RefusesPattern pattern (Session.regexBy engine field pattern split))) := by
  have hdivides : ∀ whole, engine.enclosed? pattern = some whole →
      x.DividesBy shard field split (engine.isMatch whole)
        (Session.regexBy engine field pattern split) :=
    fun whole hwhole => h.dividesBy_regexBy hb htwo field split hwhole
  have hrefuses : engine.enclosed? pattern = none →
      x.RefusesPattern pattern (Session.regexBy engine field pattern split) :=
    fun hnone => h.refuses_regexBy htwo field split hnone
  refine ⟨hdivides, hrefuses, fun hp => ⟨fun re hre => ?_, fun hnone => ?_⟩⟩
  · obtain ⟨whole, hwhole⟩ : ∃ whole, engine.enclosed? pattern = some whole := by
      rw [← Option.isSome_iff_exists, hp.isSome_eq, hre]
      rfl
    exact (hdivides whole hwhole).congr (hp.isMatch_eq whole hwhole re hre)
  · refine hrefuses (Option.isNone_iff_eq_none.mp ?_)
    rw [← Option.not_isSome, hp.isSome_eq, hnone]
    rfl

/-- Three documents, from the US, Japan and the US. -/
def countries : Shard := ⟨3, [], [("country", ⟨[("jp", [1]), ("us", [0, 2])]⟩)]⟩

def visitors : Session := { opened 1000 with shard := countries }

theorem built_countries : countries.Built :=
  .stringColumn (.empty (show Shard.empty? 3 = some ⟨3, [], []⟩ from rfl))
    (show Shard.addStringColumn? ⟨3, [], []⟩ "country" ["us", "jp", "us"] = some countries from rfl)

theorem reachable_visitors : Reachable countries narrow ⟨visitors, 0⟩ :=
  .start (Memory.Ledger.coherent_fresh 1000 none) rfl

/-- The first branch matches all of one country, the second one only a part of the other. -/
theorem Reachable.regex_meaning_visitors :
    Engine.standard.Encloses "us+|j" ∧
    (∃ n s', Session.regex "country" "us+|j" ⟨1, 0, 2⟩ visitors = .ok n s' ∧
      s'.grouping.get? 0 = some 2 ∧ s'.grouping.get? 1 = some 0) ∧
    Engine.standard.Encloses "(" ∧
    ∃ s', Session.regex "country" "(" ⟨1, 0, 2⟩ visitors =
      .error (.refused (.invalidRegex "(")) s' ∧ s'.grouping = .constant 1 3 := by
  have hclosed : Engine.standard.Encloses "us+|j" := Regex.encloses_standard (by decide +kernel)
  have hopen : Engine.standard.Encloses "(" := Regex.encloses_standard (by decide +kernel)
  obtain ⟨n, s', hr⟩ : ∃ n s',
      Session.regex "country" "us+|j" ⟨1, 0, 2⟩ visitors = .ok n s' := by
    have hok : (match Session.regex "country" "us+|j" ⟨1, 0, 2⟩ visitors with
      | .ok _ _ => true
      | .error _ _ => false) = true := by decide +kernel
    split at hok
    · rename_i n s' hr
      exact ⟨n, s', hr⟩
    · cases hok
  obtain ⟨re, hre⟩ : ∃ re, compile? "us+|j" = some re :=
    Option.isSome_iff_exists.mp (by decide +kernel)
  have hus : (compile? "us+|j").all (·.matchesAll "us") = true := by decide +kernel
  have hjp : (compile? "us+|j").all (!·.matchesAll "jp") = true := by decide +kernel
  rw [hre] at hus hjp
  obtain ⟨-, -, hmeaning⟩ := Reachable.regex_meaning reachable_visitors built_countries rfl
    .standard "country" "us+|j" ⟨1, 0, 2⟩
  have hgroups := ((hmeaning hclosed).1 re hre).moved n s' hr
  obtain ⟨_, hgroup, hfirst⟩ := hgroups 0 (by decide)
  cases hgroup
  obtain ⟨_, hgroup, hsecond⟩ := hgroups 1 (by decide)
  cases hgroup
  obtain ⟨-, -, hrefused⟩ := Reachable.regex_meaning reachable_visitors built_countries rfl
    .standard "country" "(" ⟨1, 0, 2⟩
  refine ⟨hclosed, ⟨n, s', hr, hfirst.trans ?_, hsecond.trans ?_⟩, hopen,
    (hrefused hopen).2 (Option.isNone_iff_eq_none.mp (by decide +kernel))⟩
  · have hvalues : countries.stringValues "country" 0 = ["us"] := by decide
    rw [if_pos rfl, hvalues, if_pos ⟨"us", List.mem_singleton_self _, hus⟩]
  · have hvalues : countries.stringValues "country" 1 = ["jp"] := by decide
    rw [if_pos rfl, hvalues, if_neg]
    rintro ⟨t, ht, hmatch⟩
    rw [List.mem_singleton.mp ht] at hmatch
    change (!re.matchesAll "jp") = true at hjp
    change re.matchesAll "jp" = true at hmatch
    rw [hmatch] at hjp
    cases hjp

/-- A text that is no pattern may close the group and open another one, so that the anchors hold of
its branches apart: one country begins with the first branch, the other ends in the second. -/
example : compile? "u)|(?:p" = none ∧ ¬ SelfContained "u)|(?:p" ∧
    (match Session.regex "country" "u)|(?:p" ⟨1, 0, 2⟩ visitors with
      | .ok _ s' => s'.grouping.toList
      | .error _ _ => []) = [2, 2, 2] :=
  ⟨Option.isNone_iff_eq_none.mp (by decide +kernel), by decide +kernel, by decide +kernel⟩

/-- A pattern that ends in a comment is refused. -/
example : (compile? "(?x)us #home").isSome ∧ ¬ SelfContained "(?x)us #home" ∧
    (match Session.regex "country" "(?x)us #home" ⟨1, 0, 2⟩ visitors with
      | .error (.refused (.invalidRegex _)) _ => true
      | _ => false) = true :=
  ⟨by decide +kernel, by decide +kernel, by decide +kernel⟩

end Live

end Cohort
