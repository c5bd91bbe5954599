import Faabric.Feasibility

/-! The orders in which the schedulers look at the hosts. Each comparison is a linear order on
some rank of a host, so sorting leaves the hosts in decreasing order of rank. -/

namespace Faabric

variable {isFirst : HostState → HostState → Bool}

theorem compare_then_eq_false_iff {β γ : Type*} [LinearOrder β] [LinearOrder γ] {f : HostState → γ}
    {rank : HostState → β} (h : ∀ a b, isFirst b a = false ↔ rank b ≤ rank a) (a b : HostState) :
    (if f b ≠ f a then decide (f a < f b) else isFirst b a) = false ↔
      toLex (f b, rank b) ≤ toLex (f a, rank a) := by
  rw [Prod.Lex.toLex_le_toLex]
  split_ifs with hne
  · simp only [decide_eq_false_iff_not, not_lt, hne, false_and, or_false]
    exact ⟨fun hle => lt_of_le_of_ne hle hne, le_of_lt⟩
  · have heq := not_not.mp hne
    simp [heq, h]

def hostRank (h : HostState) : Int ×ₗ Int ×ₗ String :=
  toLex (numSlotsAvailable h, toLex (h.slots, h.ip))

theorem isFirstHostLarger_eq_false_iff (a b : HostState) :
    isFirstHostLarger b a = false ↔ hostRank b ≤ hostRank a := by
  rw [← not_iff_not, not_le, Bool.not_eq_false]
  unfold isFirstHostLarger hostRank
  rw [Prod.Lex.toLex_lt_toLex, Prod.Lex.toLex_lt_toLex]
  split_ifs with h1 h2
  · simp [Ne.symm h1]
  · simp [not_not.mp h1, Ne.symm h2]
  · simp [not_not.mp h1, not_not.mp h2]

theorem isFirstHostLargerWithFreq_eq_false_iff (freq : Std.ExtTreeMap String Int compare)
    (a b : HostState) :
    isFirstHostLargerWithFreq freq b a = false ↔
      toLex (numInHost freq b, hostRank b) ≤ toLex (numInHost freq a, hostRank a) := by
  have h := compare_then_eq_false_iff (f := numInHost freq) isFirstHostLarger_eq_false_iff a b
  rw [isFirstHostLargerWithFreq]
  exact h

theorem isFirstHostLargerWithFreqTaint_eq_false_iff (freq : Std.ExtTreeMap String Int compare)
    (a b : HostState) :
    BinPack.isFirstHostLargerWithFreqTaint freq b a = false ↔
      toLex (numSlotsAvailable b, toLex (numInHost freq b, hostRank b)) ≤
        toLex (numSlotsAvailable a, toLex (numInHost freq a, hostRank a)) := by
  have h := compare_then_eq_false_iff (f := numSlotsAvailable)
    (isFirstHostLargerWithFreq_eq_false_iff freq) a b
  rw [BinPack.isFirstHostLargerWithFreqTaint]
  exact h

theorem isFirstHostFuller_eq_false_iff (a b : HostState) :
    Compact.isFirstHostFuller b a = false ↔
      toLex (b.usedSlots, hostRank b) ≤ toLex (a.usedSlots, hostRank a) := by
  have h := compare_then_eq_false_iff (f := HostState.usedSlots) isFirstHostLarger_eq_false_iff a b
  rw [Compact.isFirstHostFuller]
  exact h

theorem sortHosts_pairwise {β : Type*} [LinearOrder β] {rank : HostState → β}
    (h : ∀ a b, isFirst b a = false ↔ rank b ≤ rank a) (hosts : List HostState) :
    (sortHosts isFirst hosts).Pairwise fun a b => rank b ≤ rank a := by
  have : Std.Total fun a b : HostState => isFirst b a = false := by
    refine ⟨fun a b => ?_⟩
    simp only [h]
    exact le_total _ _
  have : IsTrans HostState fun a b => isFirst b a = false := by
    refine ⟨fun a b c hab hbc => ?_⟩
    simp only [h] at hab hbc ⊢
    exact hbc.trans hab
  exact (List.pairwise_insertionSort (fun a b => isFirst b a = false) hosts).imp fun {a b} => (h a b).mp

theorem sortHosts_first_largest {hosts rest : List HostState} {first : HostState}
    (h : sortHosts isFirstHostLarger hosts = first :: rest) {x : HostState} (hx : x ∈ hosts) :
    numSlotsAvailable x ≤ numSlotsAvailable first := by
  have hsorted := sortHosts_pairwise isFirstHostLarger_eq_false_iff hosts
  have hmem := (sortHosts_perm isFirstHostLarger hosts).mem_iff.mpr hx
  rw [h] at hmem hsorted
  rcases List.mem_cons.mp hmem with rfl | hin
  · exact le_rfl
  · exact Prod.Lex.monotone_fst _ _ ((List.pairwise_cons.mp hsorted).1 x hin)

end Faabric
