import Cohort.Proofs.Grouping.Pass
import Cohort.Proofs.Meaning

/-!
# Rearrangements — regroups that are told by where they send every document

`f doc group` is where a document of `group` is sent. What such a regroup leaves is determined by
`f`, so two of them that send the documents to the same groups come to the same, however differently
they work. They break if a group that they lead to is no id that can be counted, and otherwise only
with an `excuse` of their own.
-/

namespace Cohort.Regroup

open Pass

variable {f : Nat → Nat → Nat} {g g' : Grouping} {numDocs n : Nat} {excuse : Prop}

/-- `g'` is `g` after all documents were sent where `f` says, and `n` its number of groups. -/
structure Rearranged (f : Nat → Nat → Nat) (g : Grouping) (n : Nat) (g' : Grouping) : Prop where
  numGroups_eq : n = Meaning.numGroups g'.toList
  numGroups_le : n ≤ maxId
  len_eq : g'.len = g.len
  get?_eq : ∀ d x, g.get? d = some x → g'.get? d = some (f d x)

/-- Groups that were counted are below the largest id. -/
theorem Rearranged.lt_maxId (h : Rearranged f g n g') {d x : Nat} (hx : g.get? d = some x) :
    f d x < maxId := by
  have hmem := Grouping.mem_toList.mpr ⟨d, h.get?_eq d x hx⟩
  have hle := le_foldl_max 0 hmem
  have hn := h.numGroups_eq
  have hmax := h.numGroups_le
  unfold Meaning.numGroups at hn
  omega

/-- There is only one outcome. -/
theorem Rearranged.unique (h : Rearranged f g n g') {m : Nat} {g'' : Grouping}
    (h' : Rearranged f g m g'') : g''.toList = g'.toList ∧ m = n := by
  have hlist : g''.toList = g'.toList := by
    refine Grouping.toList_ext (h'.len_eq.trans h.len_eq.symm) fun d hd => ?_
    obtain ⟨x, hx⟩ := Grouping.get?_of_lt_len (h.len_eq ▸ hd)
    rw [h.get?_eq d x hx, h'.get?_eq d x hx]
  refine ⟨hlist, ?_⟩
  rw [h'.numGroups_eq, h.numGroups_eq, hlist]

/-- There is an excuse, or some document is led to a group that is no id that can be counted. -/
def Overruns (excuse : Prop) (f : Nat → Nat → Nat) (g : Grouping) : Prop :=
  excuse ∨ ∃ d x, g.get? d = some x ∧ maxId ≤ f d x

/-- How such a regroup ends: all documents are where they are sent, or it was refused, or a check
broke because it overruns the ids. With all documents in group 0 it does nothing. -/
def Rearranges (refused : Error → Prop) (excuse : Prop) (f : Nat → Nat → Nat) (x : Pass Nat)
    (g : Grouping) : Prop :=
  Completes x g
    (fun n g' => if 1 < g.numGroups then Rearranged f g n g' else n = g.numGroups ∧ g' = g)
    (fun e _ => refused e) (1 < g.numGroups ∧ Overruns excuse f g)

theorem rearranges_unlessFilteredOut {refused : Error → Prop} {body : Nat → Pass Nat}
    (h : 1 < g.numGroups → Completes (body g.numGroups) g (Rearranged f g)
      (fun e _ => refused e) (Overruns excuse f g)) :
    Rearranges refused excuse f (unlessFilteredOut body) g := by
  refine completes_unlessFilteredOut (fun hn => ?_) fun hn => ?_
  · rw [if_neg (by omega)]
    exact ⟨rfl, rfl⟩
  · simp only [if_pos hn]
    exact (h hn).mono (fun _ _ hd => hd) (fun _ _ he => he) fun hbroken => ⟨hn, hbroken⟩

/-- A rewrite that sends all documents to their destinations, and the recount after it. With room
for them it can store all ids; the recount breaks if one of them is the largest. -/
theorem completes_rearrange {c : Grouping → Option Grouping} {top : Nat} (hg : g.Counted numDocs)
    {refused : Error → Grouping → Prop} (htop : maxId < top → excuse)
    (hframe : ∀ g', c (g.roomFor top) = some g' → g'.frame = (g.roomFor top).frame)
    (hget : ∀ g', c (g.roomFor top) = some g' → ∀ d x, g.get? d = some x →
      g'.get? d = some (f d x))
    (hex : ¬ excuse → (∀ x ≤ top, (g.roomFor top).Accepts x) → ∃ g', c (g.roomFor top) = some g') :
    Completes (change c >>= fun _ => recount) (g.roomFor top) (Rearranged f g) refused
      (Overruns excuse f g) := by
  refine completes_bind (completes_change (fun g1 hg1 => ?_) fun hnone => ?_)
  · have hf := hframe g1 hg1
    have hstored : g1.isConstant = false :=
      (Grouping.isConstant_of_frame hf).trans (g.isConstant_roomFor _)
    have hlen : g1.len = g.len :=
      (Grouping.len_eq_of_frame hf).trans (Grouping.len_roomFor g _)
    refine ⟨Grouping.bytes_eq_of_frame hf, completes_recount (fun g' hg' => ?_) fun hnone => ?_⟩
    · exact ⟨Meaning.numGroups_recount? hstored hg', Grouping.numGroups_le_of_recount? hg',
        (Grouping.len_recount? hg').trans hlen,
        fun d x hx => (Grouping.get?_recount? hg' d).trans (hget g1 hg1 d x hx)⟩
    · -- a recount only breaks at the largest id
      by_contra hb
      have hlt : g1.All (· < maxId) := by
        intro d y hy
        obtain ⟨x, hx⟩ := Grouping.get?_of_lt_len (hlen ▸ Grouping.lt_len_of_get? hy)
        rw [hget g1 hg1 d x hx] at hy
        obtain rfl := Option.some.inj hy
        exact Nat.lt_of_not_le fun hle => hb (.inr ⟨d, x, hx, hle⟩)
      obtain ⟨g', hg'⟩ := Grouping.exists_recount? hlt hstored
      rw [hnone] at hg'
      cases hg'
  · by_contra hb
    have hle : top ≤ maxId := Nat.le_of_not_lt fun hlt => hb (.inl (htop hlt))
    obtain ⟨g', hg'⟩ := hex (fun h => hb (.inl h)) fun x hx =>
      hg.accepts_roomFor (by omega) (by omega)
    rw [hnone] at hg'
    cases hg'

end Cohort.Regroup
