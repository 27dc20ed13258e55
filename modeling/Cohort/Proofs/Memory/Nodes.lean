import Cohort.Memory.Node
import Cohort.Proofs.Memory.Charge

/-!
# Nodes and ledgers — counters do what accounts do

An account is kept by a node, and a ledger by the nodes of its account and of its pool. As long as
every account is within a limit of 64 bits, claiming from the nodes and giving back to them goes as
it does with the ledger: a claim that some node refuses leaves no trace in the counters of those
that were asked before it.
-/

namespace Cohort.Memory

/-- The node that keeps an account. -/
def Account.node (a : Account) : Node :=
  ⟨.ofNat a.limit, ⟨.ofNat a.remaining⟩, ⟨.ofNat a.peak⟩⟩

/-- The nodes that a claim on a ledger asks, in their order. -/
def Ledger.nodes (l : Ledger) : List Node := (l.own :: l.pool.toList).map Account.node

/-- Never beyond its limit so far. -/
structure Account.Within (a : Account) : Prop where
  used_le_peak : a.used ≤ a.peak
  peak_le_limit : a.peak ≤ a.limit

/-- Within a limit that is a word. -/
structure Account.Fits (a : Account) : Prop extends a.Within where
  limit_lt : a.limit < wordBound

/-! ### One account -/

namespace Account

variable {a : Account} {n : UInt64}

theorem Fits.remaining_lt (h : a.Fits) : a.remaining < wordBound :=
  Nat.lt_of_le_of_lt (Nat.sub_le _ _) h.limit_lt

/-- What a node has used is what is missing of its limit. -/
theorem Fits.used_node (h : a.Fits) : a.node.used = .ofNat a.used := by
  have hused := Nat.le_trans h.used_le_peak h.peak_le_limit
  show UInt64.ofNat a.limit - .ofNat (a.limit - a.used) = .ofNat a.used
  rw [← UInt64.ofNat_sub (Nat.sub_le _ _), Nat.sub_sub_self hused]

/-- What the counters of a node say. -/
theorem Fits.readings (h : a.Fits) : a.node.used.toNat = a.used ∧
    a.node.remaining.value.toNat = a.remaining ∧ a.node.peak.value.toNat = a.peak := by
  have hpeak := h.peak_le_limit
  have hlimit : a.limit < UInt64.size := h.limit_lt
  have hused := h.used_le_peak
  rw [h.used_node]
  exact ⟨UInt64.toNat_ofNat_of_lt' (by omega), UInt64.toNat_ofNat_of_lt' h.remaining_lt,
    UInt64.toNat_ofNat_of_lt' (by omega)⟩

/-- A counter holds an amount if the account has room for it. -/
theorem Fits.withdraw?_node (h : a.Fits) : a.node.remaining.withdraw? n =
    if a.hasRoom n.toNat then some ⟨.ofNat (a.charge n.toNat).remaining⟩ else none := by
  have hroom : n ≤ UInt64.ofNat a.remaining ↔ a.hasRoom n.toNat = true := by
    have hused := Nat.le_trans h.used_le_peak h.peak_le_limit
    rw [UInt64.le_ofNat_iff h.remaining_lt, hasRoom, decide_eq_true_eq, remaining]
    omega
  unfold Counter.withdraw? node
  by_cases hn : n ≤ UInt64.ofNat a.remaining
  · have hleft : (a.charge n.toNat).remaining = a.remaining - n.toNat := Nat.sub_add_eq _ _ _
    rw [if_pos hn, if_pos (hroom.mp hn), hleft,
      UInt64.ofNat_sub ((UInt64.le_ofNat_iff h.remaining_lt).mp hn), UInt64.ofNat_toNat]
  · rw [if_neg hn, if_neg (hroom.not.mp hn)]

/-- Withdrawing, and raising the mark to what is used then, charges the account. -/
theorem Fits.raise_node (h : a.Fits) (hroom : a.hasRoom n.toNat = true) :
    let left : Node := { a.node with remaining := ⟨.ofNat (a.charge n.toNat).remaining⟩ }
    { left with peak := left.peak.raiseTo left.used } = (a.charge n.toNat).node := by
  have hpeak := h.peak_le_limit
  have hlimit := h.limit_lt
  simp only [hasRoom, decide_eq_true_eq] at hroom
  have hfits : (a.charge n.toNat).Fits :=
    ⟨⟨Nat.le_max_right _ _, Nat.max_le.mpr ⟨hpeak, hroom⟩⟩, hlimit⟩
  have hmax : max (UInt64.ofNat a.peak) (.ofNat (a.used + n.toNat)) =
      .ofNat (max a.peak (a.used + n.toNat)) := by
    have hle : UInt64.ofNat a.peak ≤ .ofNat (a.used + n.toNat) ↔ a.peak ≤ a.used + n.toNat :=
      UInt64.ofNat_le_iff_le (Nat.lt_of_le_of_lt hpeak hlimit) (Nat.lt_of_le_of_lt hroom hlimit)
    show (if _ ≤ _ then _ else _) = _
    by_cases hp : a.peak ≤ a.used + n.toNat
    · rw [if_pos (hle.mpr hp), Nat.max_eq_right hp]
    · rw [if_neg (hle.not.mpr hp), Nat.max_eq_left (Nat.le_of_not_le hp)]
  have hused : (a.charge n.toNat).node.used = .ofNat (a.used + n.toNat) := hfits.used_node
  show Node.mk _ _ ⟨max (UInt64.ofNat a.peak) (a.charge n.toNat).node.used⟩ = _
  rw [hused, hmax]
  rfl

/-- What was withdrawn and is put back leaves the account as it was. -/
theorem Fits.deposit_node (hroom : a.hasRoom n.toNat = true) :
    { a.node with remaining := Counter.deposit ⟨.ofNat (a.charge n.toNat).remaining⟩ n } =
      a.node := by
  simp only [hasRoom, decide_eq_true_eq] at hroom
  have hback : (a.charge n.toNat).remaining + n.toNat = a.remaining := by
    simp only [remaining, charge]
    omega
  have hword : UInt64.ofNat (a.charge n.toNat).remaining + n = .ofNat a.remaining := by
    rw [← hback, UInt64.ofNat_add, UInt64.ofNat_toNat]
  unfold Counter.deposit
  rw [hword]
  rfl

/-- An amount that is used and is put back is refunded. -/
theorem Fits.refund_node (h : a.Fits) (hn : n.toNat ≤ a.used) :
    { a.node with remaining := a.node.remaining.deposit n } = (a.refund n.toNat).node := by
  have hused := Nat.le_trans h.used_le_peak h.peak_le_limit
  have hback : (a.refund n.toNat).remaining = a.remaining + n.toNat := by
    simp only [remaining, refund]
    omega
  have hword : UInt64.ofNat a.remaining + n = .ofNat (a.refund n.toNat).remaining := by
    rw [hback, UInt64.ofNat_add, UInt64.ofNat_toNat]
  unfold Counter.deposit node
  rw [hword]
  rfl

end Account

/-! ### Any number of accounts, each behind the one before -/

namespace Node

variable {as : List Account} {n : UInt64}

/-- All nodes are charged if all accounts have room; otherwise none of them changes. -/
theorem allocate_map (has : ∀ a ∈ as, a.Fits) (hn : n ≠ 0) :
    allocate n (as.map Account.node) =
      if as.all (·.hasRoom n.toNat) then (true, (as.map (·.charge n.toNat)).map Account.node)
      else (false, as.map Account.node) := by
  induction as with
  | nil => rfl
  | cons a as ih =>
    have ha := has a List.mem_cons_self
    have ih := ih fun b hb => has b (List.mem_cons_of_mem _ hb)
    simp only [List.map_cons, allocate, if_neg hn, ha.withdraw?_node, List.all_cons]
    by_cases hroom : a.hasRoom n.toNat
    · rw [if_pos hroom, ih]
      by_cases hall : as.all (·.hasRoom n.toNat)
      · rw [if_pos hall, hroom, hall]
        exact congrArg (fun first => (true, first :: _)) (ha.raise_node hroom)
      · rw [if_neg hall, if_neg (by simp [hall])]
        exact congrArg (fun first => (false, first :: _)) (Account.Fits.deposit_node hroom)
    · rw [if_neg hroom, if_neg (by simp [hroom])]

/-- All nodes are given an amount back that all of them have used. -/
theorem release?_map (has : ∀ a ∈ as, a.Fits) (hn : n ≠ 0) :
    release? n (as.map Account.node) =
      if as.all (n.toNat ≤ ·.used) then some ((as.map (·.refund n.toNat)).map Account.node)
      else none := by
  induction as with
  | nil => rfl
  | cons a as ih =>
    have ha := has a List.mem_cons_self
    have ih := ih fun b hb => has b (List.mem_cons_of_mem _ hb)
    have hused : a.used < wordBound :=
      Nat.lt_of_le_of_lt (Nat.le_trans ha.used_le_peak ha.peak_le_limit) ha.limit_lt
    have hle : n ≤ a.node.used ↔ n.toNat ≤ a.used := by
      rw [ha.used_node, UInt64.le_ofNat_iff hused]
    simp only [List.map_cons, release?, if_neg hn, hle, ih, List.all_cons]
    by_cases hown : n.toNat ≤ a.used
    · rw [if_pos hown]
      by_cases hall : as.all (n.toNat ≤ ·.used)
      · rw [if_pos hall, if_pos (by simp [hown, hall])]
        exact congrArg (fun first => some (first :: _)) (ha.refund_node hown)
      · rw [if_neg hall, if_neg (by simp [hall])]
        rfl
    · rw [if_neg hown, if_neg (by simp [hown])]

theorem allocate_zero (ns : List Node) : allocate 0 ns = (true, ns) := by
  cases ns with
  | nil => rfl
  | cons n above => exact if_pos rfl

theorem release?_zero (ns : List Node) : release? 0 ns = some ns := by
  cases ns with
  | nil => rfl
  | cons n above => exact if_pos rfl

end Node

/-! ### Ledgers -/

namespace Ledger

variable {l : Ledger} (has : ∀ a ∈ l.own :: l.pool.toList, a.Fits) (n : UInt64)
include has

/-- The nodes of a ledger grant just the claims that the ledger grants, are charged as it is, and do
not change where it refuses. -/
theorem allocate_nodes : Node.allocate n l.nodes =
    ((l.claim? n.toNat).isSome, ((l.claim? n.toNat).getD l).nodes) := by
  unfold claim?
  by_cases h0 : n = 0
  · subst h0
    rw [UInt64.toNat_zero, if_pos rfl]
    exact Node.allocate_zero _
  have hn : n.toNat ≠ 0 := fun h => h0 (UInt64.toNat_inj.mp h)
  have hroom : (l.own :: l.pool.toList).all (·.hasRoom n.toNat) = l.hasRoom n.toNat := by
    rw [List.all_cons, hasRoom]
    cases l.pool <;> simp
  rw [if_neg hn, nodes, Node.allocate_map has h0, hroom]
  by_cases h : l.hasRoom n.toNat
  · rw [if_pos h, if_pos h]
    cases l.pool <;> rfl
  · rw [if_neg h, if_neg h]
    rfl

/-- They take back just what the ledger takes back. -/
theorem release?_nodes : Node.release? n l.nodes = (l.release? n.toNat).map nodes := by
  unfold release?
  by_cases h0 : n = 0
  · subst h0
    rw [UInt64.toNat_zero, if_pos rfl]
    exact Node.release?_zero _
  have hn : n.toNat ≠ 0 := fun h => h0 (UInt64.toNat_inj.mp h)
  have hheld : (l.own :: l.pool.toList).all (n.toNat ≤ ·.used) =
      (decide (n.toNat ≤ l.own.used) && l.pool.all (n.toNat ≤ ·.used)) := by
    rw [List.all_cons]
    cases l.pool <;> simp
  rw [if_neg hn, nodes, Node.release?_map has h0, hheld]
  split_ifs
  · cases l.pool <;> rfl
  · rfl

end Ledger

end Cohort.Memory
