import Mathlib
import Cohort.Proofs.Meaning
import Cohort.Proofs.Session.Reachable

/-!
# Guarantees — what a caller can rely on between any two calls

All of these hold of every reachable session, whatever was asked of it before, answered or refused:
how the groups are laid out, what the ledger is charged for and gets back in the end, that a refused
request changes nothing that can be read, and that multi-condition rules move every document the
way they are meant to.
-/

namespace Cohort

/-! ### Closing -/

namespace Session

variable {shard : Shard} {config : Config} {free hand : Nat} {s : Session}

/-- Closing gives back all that the session holds. -/
theorem Sound.close (hs : s.Sound shard config free hand) :
    ∃ l, s.close = some l ∧ l.used = hand := by
  have h := hs.used_eq
  unfold heldBytes at h
  rw [StatStack.bytes_eq_sum, ← metricBytes_eq_sum] at h
  obtain ⟨l1, hl1, h1, hu1⟩ := hs.coherent.releaseAll
    (s.stats.stats.toList.map (·.values.bytes)) (by omega)
  obtain ⟨l2, hl2, h2, hu2⟩ := h1.releaseAll (s.metrics.map (·.2.bytes)) (by omega)
  obtain ⟨l3, hl3, h3, hu3⟩ := h2.release? (b := s.grouping.bytes) (by omega)
  obtain ⟨l4, hl4, -, hu4⟩ := h3.release? (b := s.buffers.reserved) (by omega)
  refine ⟨l4, ?_, by omega⟩
  unfold Session.close
  rw [hl1]
  show (List.foldlM Memory.Ledger.release? l1 _ >>= _) = _
  rw [hl2]
  show (l2.release? _ >>= _) = _
  rw [hl3]
  exact hl4

end Session

/-! ### A small session -/

namespace Live

/-- Three documents of ages 10, 20 and 20. -/
def ages : Shard := ⟨3, [("age", ⟨[(10, [0]), (20, [1, 2])]⟩)], []⟩

def narrow : Config := { bufferSize := 2 }

/-- A session over `ages` before any request. -/
def opened (limit : Nat) : Session where
  shard := ages
  config := narrow
  ledger := ⟨⟨limit, 32, 32⟩, none⟩
  buffers := ⟨2, 8, 1, 32⟩
  grouping := .constant 1 3
  stats := .empty 64
  metrics := []
  zeroCount := none

/-- Documents of age 20 go to group 2 and the others to group 0. -/
def onlyTwenty : MultiRule := ⟨1, 0, [2], [⟨"age", .int 20, false⟩]⟩

/-- The session after `onlyTwenty`. -/
def divided : Session :=
  { opened 1000 with
    ledger := ⟨⟨1000, 35, 150⟩, none⟩
    grouping := .stored ⟨.byte, 2, 3, #[0, 2, 2]⟩ }

/-- The session if only the wider grouping had fitted the ledger. -/
def widened : Session :=
  { opened 100 with
    ledger := ⟨⟨100, 35, 40⟩, none⟩
    grouping := .stored ⟨.byte, 2, 2, #[1, 1, 1]⟩ }

theorem built_ages : ages.Built :=
  .intColumn (.empty (show Shard.empty? 3 = some ⟨3, [], []⟩ from rfl))
    (show Shard.addIntColumn? ⟨3, [], []⟩ "age" [10, 20, 20] = some ages from rfl)

theorem reachable_opened : Reachable ages narrow ⟨opened 1000, 0⟩ :=
  .start (Memory.Ledger.coherent_fresh 1000 none) rfl

theorem regroupMulti_opened :
    Session.regroupMulti [onlyTwenty] true (opened 1000) = .ok 3 divided := by
  cbv

theorem reachable_divided : Reachable ages narrow ⟨divided, 0⟩ := by
  refine .step reachable_opened (.answered
    (r := .command (.regroupMulti [onlyTwenty] true)) (a := .outcome (.groups 3)) ?_)
  show EStateM.map _ (EStateM.map _ (Session.regroupMulti [onlyTwenty] true)) _ = _
  simp only [EStateM.map, regroupMulti_opened]

/-! ### Every reachable session -/

variable {shard : Shard} {config : Config} {x : Live} {r : Request} {s' : Session}

/-- The layout of the groups: every document has a group below the number of groups and within the
capacity, the largest group is taken, and words are as narrow as the capacity allows. A regroup
leaves as many groups as it reports. -/
theorem Reachable.layout (h : Reachable shard config x) :
    x.session.grouping.len = shard.numDocs ∧
    (∀ d < shard.numDocs, ∃ group, x.session.grouping.get? d = some group ∧
      group < x.session.numGroups ∧ group ≤ x.session.grouping.capacity) ∧
    (0 < shard.numDocs →
      ∃ d, x.session.grouping.get? d = some (x.session.numGroups - 1)) ∧
    (∀ words, x.session.grouping = .stored words →
      (words.width = .byte ↔ words.capacity ≤ 255) ∧
      (words.width = .short ↔ 256 ≤ words.capacity ∧ words.capacity ≤ 65535) ∧
      (words.width = .long ↔ 65536 ≤ words.capacity) ∧
      x.session.grouping.bytes = shard.numDocs * words.width.bytes) ∧
    (x.session.grouping.isConstant = true → x.session.grouping.bytes = 0) ∧
    ∀ (r : Request) (n : Nat) (s' : Session),
      r.apply x.session = .ok (.outcome (.groups n)) s' → s'.numGroups = n := by
  have hs := h.sound
  have hg := hs.wellFormed
  refine ⟨hg.len_eq, ?_, hg.top_attained, ?_, ?_, ?_⟩
  · intro d hd
    obtain ⟨group, hgroup⟩ := Grouping.get?_of_lt_len (hg.len_eq.symm ▸ hd)
    exact ⟨group, hgroup, hg.lt_numGroups d group hgroup, hg.le_capacity d group hgroup⟩
  · intro words hwords
    have hwidth := hg.width_eq words hwords
    have hlen := hg.len_eq
    rw [hwords] at hlen ⊢
    refine ⟨?_, ?_, ?_, ?_⟩
    · rw [hwidth, Width.fitting_eq_byte]
    · rw [hwidth, Width.fitting_eq_short]
    · rw [hwidth, Width.fitting_eq_long]
    · exact congrArg (· * words.width.bytes) hlen
  · intro hconst
    cases hgrouping : x.session.grouping with
    | constant group len => rfl
    | stored words =>
      rw [hgrouping] at hconst
      cases hconst
  · intro r n s' hr
    exact ((Session.serves_request hs r).ok_of hr).2 n rfl

theorem Reachable.layout_divided : Reachable ages narrow ⟨divided, 0⟩ ∧
    divided.grouping.len = 3 ∧ (0 < 3 → ∃ d, divided.grouping.get? d = some 2) :=
  ⟨reachable_divided, (Reachable.layout reachable_divided).1,
    (Reachable.layout reachable_divided).2.2.1⟩

/-- The ledger is charged for what the session holds and for what was claimed by hand, and closing
the session leaves just the latter. -/
theorem Reachable.accounts_balance (h : Reachable shard config x) :
    x.session.ledger.used = 16 * config.bufferSize + x.session.grouping.bytes +
      (x.session.stats.stats.toList.map (·.values.bytes)).sum +
      4 * shard.numDocs * x.session.metrics.length + x.hand ∧
    ∃ l, x.session.close = some l ∧ l.used = x.hand := by
  have hs := h.sound
  refine ⟨?_, hs.close⟩
  have hbuffers : x.session.buffers.reserved = config.bufferSize * 16 := by
    rw [hs.buffers_eq]
    rfl
  have hmetrics : x.session.metrics.length * (shard.numDocs * 4) =
      4 * shard.numDocs * x.session.metrics.length := by
    rw [Nat.mul_comm shard.numDocs 4, Nat.mul_comm]
  rw [hs.used_eq, Session.heldBytes, hbuffers, StatStack.bytes_eq_sum,
    Session.metricBytes_eq hs.size_eq, Counters.bytesFor, hmetrics, Nat.mul_comm 16]

theorem Reachable.accounts_balance_divided :
    ∃ l, l.used = 40 ∧ Reachable ages narrow ⟨{ divided with ledger := l }, 5⟩ ∧
    l.used = 16 * 2 + 3 + 0 + 0 + 5 := by
  have h : Reachable ages narrow ⟨{ divided with ledger := ⟨⟨1000, 40, 150⟩, none⟩ }, 5⟩ :=
    .step reachable_divided (.claimed (b := 5) rfl)
  exact ⟨_, rfl, h, (Reachable.accounts_balance h).1⟩

/-- A refused request leaves all groups, the number of groups, the stats and the metrics as they
were. -/
theorem Reachable.refused_keeps (h : Reachable shard config x) {e : Error}
    (hr : r.apply x.session = .error (.refused e) s') :
    (∀ d, s'.grouping.get? d = x.session.grouping.get? d) ∧
    s'.numGroups = x.session.numGroups ∧ s'.stats = x.session.stats ∧
    s'.metrics = x.session.metrics := by
  obtain ⟨-, hk⟩ := (Session.serves_request h.sound r).err_of hr
  exact ⟨hk.get?_eq, hk.numGroups_eq, hk.stats_eq, hk.metrics_eq⟩

/-- There was room to widen the grouping, but not for the rest of the regroup. -/
theorem Reachable.refused_keeps_widened :
    (∀ d, widened.grouping.get? d = (opened 100).grouping.get? d) ∧
    widened.numGroups = 2 ∧ widened.stats = .empty 64 ∧ widened.metrics = [] := by
  have h : Reachable ages narrow ⟨opened 100, 0⟩ :=
    .start (Memory.Ledger.coherent_fresh 100 none) rfl
  have hr : (Request.command (.regroupMulti [onlyTwenty] true)).apply (opened 100) =
      .error (.refused (.outOfMemory ⟨104, 65⟩)) widened := by
    cbv
  exact Reachable.refused_keeps h hr

/-- Multi-condition rules move every document as its own values and its group say, and the number
of groups that is reported is one more than the largest new group. -/
theorem Reachable.multi_meaning (h : Reachable shard config x) (hb : shard.Built)
    {rules : List MultiRule} {errorOnCollisions : Bool} {n : Nat}
    (hr : Session.regroupMulti rules errorOnCollisions x.session = .ok n s') :
    Meaning.multiRules? shard x.session.grouping.toList rules = some s'.grouping.toList ∧
    (0 < shard.numDocs → n = Meaning.numGroups s'.grouping.toList) := by
  obtain ⟨-, happ⟩ := (Session.serves_regroupMulti h.sound rules errorOnCollisions).ok_of hr
  refine ⟨happ.meaning hb.ascending h.bufferSize_pos, fun hn => ?_⟩
  rw [Meaning.numGroups_toList happ.wellFormed hn, happ.numGroups_eq]

theorem Reachable.multi_meaning_divided :
    Meaning.multiRules? ages [1, 1, 1] [onlyTwenty] = some [0, 2, 2] ∧
    (0 < 3 → 3 = Meaning.numGroups [0, 2, 2]) :=
  Reachable.multi_meaning reachable_opened built_ages regroupMulti_opened

end Live

end Cohort
