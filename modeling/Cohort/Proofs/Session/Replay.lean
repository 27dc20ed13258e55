import Cohort.Proofs.Session.Agree
import Cohort.Proofs.Session.Guarantees

/-!
# Replays — what a whole run shows a caller

`Session.replay` runs requests one after the other and lists the replies, each with what the session
shows afterwards. Two sessions that start on the same shard replay the same, however they are
buffered: unless memory runs out, or a table is short of values.
-/

namespace Cohort

/-- What a session shows between two requests. -/
structure View where
  grouping : Grouping
  stats : StatStack
  /-- The sums over each group, of every stat on the stack. -/
  sums : List (Option (List Int))
  metrics : List (String × Counters)

/-- How a request ends. Nothing follows a broken check. -/
inductive Event where
  | replied (reply : Except Error Answer) (view : View)
  | broken

/-- Whether memory ran out. -/
def Event.isShortage : Event → Bool
  | replied (.error (.outOfMemory _)) _ => true
  | _ => false

def Event.isBroken : Event → Bool
  | broken => true
  | _ => false

namespace Session

def view (s : Session) : View where
  grouping := s.grouping
  stats := s.stats
  sums := s.stats.stats.toList.map fun x => sumByGroup? s.grouping s.config.bufferSize x.values
  metrics := s.metrics

/-- Runs requests until a check breaks. -/
def replay : List Request → Session → List Event
  | [], _ => []
  | r :: rs, s =>
    match r.apply s with
    | .ok a t => .replied (.ok a) t.view :: replay rs t
    | .error (.refused e) t => .replied (.error e) t.view :: replay rs t
    | .error .broken _ => [.broken]

variable {strict : Prop} {shard : Shard} {config config' : Config} {hand hand' : Nat}
  {s s' : Session} {rs : List Request}

/-- Twins show the same, whatever their buffers. -/
theorem Twins.view_eq (h : Twins strict s s') : s'.view = s.view := by
  unfold view
  rw [h.grouping_eq, h.stats_eq, h.metrics_eq]
  congr 1
  refine List.map_congr_left fun x _ => ?_
  rw [sumByGroup?_eq, sumByGroup?_eq]

theorem not_shortage_of_cons {e : Event} {es : List Event}
    (h : (e :: es).any Event.isShortage = false) :
    e.isShortage = false ∧ es.any Event.isShortage = false := by
  rw [List.any_cons, Bool.or_eq_false_iff] at h
  exact h

/-- Twins replay the same if neither runs out of memory, which a strict right one cannot do first.
Where the buffers differ in size, every value that a request may read must be there. -/
theorem Twins.replay_eq (ht : Twins strict s s') (hs : s.Sound shard config 1 hand)
    (hs' : s'.Sound shard config' 1 hand') (ha : shard.Ascending) (hc : 0 < config.bufferSize)
    (hc' : 0 < config'.bufferSize) (hsize : strict → config'.bufferSize = config.bufferSize)
    (hn : s.numGroups ≤ maxId)
    (hcovers : config'.bufferSize ≠ config.bufferSize →
      s.stats.Covers shard.numDocs ∧ ∀ r ∈ rs, r.Covering shard.numDocs)
    (hm : (s.replay rs).any Event.isShortage = false)
    (hm' : ¬strict → (s'.replay rs).any Event.isShortage = false) :
    s'.replay rs = s.replay rs := by
  induction rs generalizing s s' with
  | nil => rfl
  | cons r rs ih =>
    -- what the requests left need carries over, as long as the values still cover the documents
    have hrest : ∀ {t : Session}, (config'.bufferSize ≠ config.bufferSize →
        t.stats.Covers shard.numDocs) → config'.bufferSize ≠ config.bufferSize →
        t.stats.Covers shard.numDocs ∧ ∀ r ∈ rs, r.Covering shard.numDocs :=
      fun hstats hdiff =>
        ⟨hstats hdiff, fun r hr => (hcovers hdiff).2 r (List.mem_cons_of_mem _ hr)⟩
    have halike := Call.alike_request hs hs' ht ha hc hc' hsize hn
      (fun hdiff => (hcovers hdiff).1) r
    have hserves := Session.serves_request hs r
    have hserves' := Session.serves_request hs' r
    have hfulfils := Call.fulfils_request hs ha hc hn r
    unfold Call.Serves Ends at hserves hserves'
    unfold Call.Fulfils Ends at hfulfils
    unfold replay at hm hm' ⊢
    generalize r.apply s = x at halike hserves hfulfils hm ⊢
    generalize r.apply s' = x' at halike hserves' hm' ⊢
    cases halike with
    | @ok a t t' htwins =>
      have hcov : config'.bufferSize ≠ config.bufferSize → t.stats.Covers shard.numDocs :=
        fun hdiff => hfulfils.2 ⟨(hcovers hdiff).2 r List.mem_cons_self, (hcovers hdiff).1⟩
      simp only [htwins.view_eq, ih htwins hserves.1 hserves'.1 hfulfils.1 (hrest hcov)
        (not_shortage_of_cons hm).2 fun h => (not_shortage_of_cons (hm' h)).2]
    | @refused e t t' htwins =>
      -- a refused request keeps the groups and the stats
      obtain ⟨hsound, hk⟩ := hserves
      have hn : t.numGroups ≤ maxId := hk.numGroups_eq ▸ hn
      have hcov : config'.bufferSize ≠ config.bufferSize → t.stats.Covers shard.numDocs :=
        fun hdiff => hk.stats_eq ▸ (hcovers hdiff).1
      simp only [htwins.view_eq, ih htwins hsound hserves'.1 hn (hrest hcov)
        (not_shortage_of_cons hm).2 fun h => (not_shortage_of_cons (hm' h)).2]
    | broken => rfl
    | leftShort => cases (not_shortage_of_cons hm).1
    | rightShort h => cases (not_shortage_of_cons (hm' h)).1

/-- New sessions of one shard are twins. -/
theorem twins_start {l l' : Memory.Ledger} (h : start shard l config = .ok s)
    (h' : start shard l' config' = .ok s') (hmax : config'.maxStats = config.maxStats) :
    Twins False s s' := by
  obtain ⟨hg, hstats, hmetrics, hcount⟩ := start_ok h
  obtain ⟨hg', hstats', hmetrics', hcount'⟩ := start_ok h'
  refine ⟨hg'.trans hg.symm, ?_, hmetrics'.trans hmetrics.symm, hcount'.trans hcount.symm,
    False.elim⟩
  rw [hstats, hstats', hmax]

/-- The buffers are of no consequence: two sessions of one shard that differ in the size of their
buffers, in how many sets of these they keep and in their memory reply the same to the same requests
and show the same after each, up to the first broken check, if there is any. Memory must not run
out, and the tables that are pushed must have a value for every document. -/
theorem replay_buffers {l l' : Memory.Ledger} (hb : shard.Built) (hl : l.Coherent)
    (hl' : l'.Coherent) (h : start shard l config = .ok s) (h' : start shard l' config' = .ok s')
    (hmax : config'.maxStats = config.maxStats) (hrs : ∀ r ∈ rs, r.Covering shard.numDocs)
    (hm : (s.replay rs).any Event.isShortage = false)
    (hm' : (s'.replay rs).any Event.isShortage = false) : s'.replay rs = s.replay rs := by
  exact (twins_start h h' hmax).replay_eq (sound_start hl h) (sound_start hl' h') hb.ascending
    (bufferSize_pos_of_start h) (bufferSize_pos_of_start h') False.elim (numGroups_start h)
    (fun _ => ⟨covers_start h, hrs⟩) hm fun _ => hm'

open Live in
/-- `opened` with buffers of a single entry. -/
def single : Session :=
  { opened 1000 with
    config := { bufferSize := 1 }
    ledger := ⟨⟨1000, 16, 16⟩, none⟩
    buffers := ⟨1, 8, 1, 16⟩ }

/-- A table of points for all three documents, by which the first one is dealt out. -/
def pointsDealt : List Request :=
  [.command (.intOr "age" [20] ⟨1, 1, 2⟩), .pushValues "points" (.dense #[7, 8, 9]),
    .command (.randomMetricMulti 0 "" ⟨1, [], [3]⟩), .command (.groupStats 0)]

open Live in
theorem replay_buffers_points :
    start ages (.fresh 1000 none) narrow = .ok (opened 1000) ∧
    start ages (.fresh 1000 none) { bufferSize := 1 } = .ok single ∧
    single.replay pointsDealt = (opened 1000).replay pointsDealt := by
  have hcovering : ∀ r ∈ pointsDealt, r.Covering ages.numDocs := by
    intro r hr
    unfold pointsDealt at hr
    simp only [List.mem_cons, List.not_mem_nil, or_false] at hr
    rcases hr with rfl | rfl | rfl | rfl
    · trivial
    · exact Nat.le_refl 3
    · trivial
    · trivial
  have hl := Memory.Ledger.coherent_fresh 1000 none
  have hstart : start ages (.fresh 1000 none) narrow = .ok (opened 1000) := rfl
  have hstart' : start ages (.fresh 1000 none) { bufferSize := 1 } = .ok single := rfl
  refine ⟨hstart, hstart', replay_buffers built_ages hl hl hstart hstart' rfl hcovering ?_ ?_⟩
  · decide +kernel
  · decide +kernel

/-- The same, but two documents have no points. -/
def pointsShort : List Request :=
  [.command (.intOr "age" [20] ⟨1, 1, 2⟩), .pushValues "points" (.dense #[7]),
    .command (.randomMetricMulti 0 "" ⟨1, [], [3]⟩)]

open Live in
/-- Without a value for every document the buffers do matter: a chunk without documents to deal out
is skipped, and the values that are missing with it. -/
theorem replay_buffers_short : ¬ ∀ (shard : Shard) (config config' : Config) (l l' : Memory.Ledger)
    (s s' : Session) (rs : List Request), shard.Built → l.Coherent → l'.Coherent →
      start shard l config = .ok s → start shard l' config' = .ok s' →
      config'.maxStats = config.maxStats → (s.replay rs).any Event.isShortage = false →
      (s'.replay rs).any Event.isShortage = false → s'.replay rs = s.replay rs := by
  intro h
  have hl := Memory.Ledger.coherent_fresh 1000 none
  have hsame := h ages narrow { bufferSize := 1 } (.fresh 1000 none) (.fresh 1000 none)
    (opened 1000) single pointsShort built_ages hl hl rfl rfl rfl (by decide +kernel)
    (by decide +kernel)
  have hbroken : ((opened 1000).replay pointsShort).any Event.isBroken = true := by
    decide +kernel
  have hwhole : (single.replay pointsShort).any Event.isBroken = false := by
    decide +kernel
  rw [hsame, hbroken] at hwhole
  cases hwhole

end Session

end Cohort
