/-
`rrf_fuse_lanes` over any lanes, with exact scores. A candidate's score is the sum of its contributions, one for each
lane that ranks it, by the rank of its first hit there; so the order in which the lanes are given does not show, and a
candidate that moves up in one lane can only gain while every other one can only lose.
-/
import Mesa.Foundation.Ranking
import Mesa.Foundation.Result

namespace Mesa.Retrieval.Fusion

open Mesa.Foundation

/-- The rankings by lane; a mapping has every lane once. -/
structure LaneRankings where
  lanes : List (String × List String)
  distinct : (lanes.map Prod.fst).Nodup

/-- Weights by lane, `none` for the default ones. -/
abbrev Weights := Option (List (String × ℚ))

inductive FusionError
  | weightFor (lane : String) (weight : ℚ)
  | rank (rank : Nat)
  | k (k : ℚ)
  | weight (weight : ℚ)
  deriving DecidableEq

/-- `V4_RRF_LANE_WEIGHTS`. -/
def laneWeights : List (String × ℚ) := [("vector", 1), ("bm25", 1), ("assertion", 1), ("graph", 1)]

/-- `w_map.get(lane, 1.0)`. -/
def weightOf (weights : Weights) (lane : String) : ℚ :=
  (((weights.getD laneWeights).find? fun w => decide (w.1 = lane)).map Prod.snd).getD 1

/-- `compute_rrf_lane_score`. -/
def computeRrfLaneScore (k : ℚ) (weights : Weights) (lane : String) (rank : Nat) : Except FusionError ℚ :=
  if rank < 1 then .error (.rank rank)
  else if k < 1 then .error (.k k)
  else if weightOf weights lane < 0 then .error (.weight (weightOf weights lane))
  else .ok (weightOf weights lane / (k + rank))

/-- `scores` and `lane_ranks`, with the order in which their keys came. -/
structure Tally where
  ids : List String
  score : String → ℚ
  laneRanks : String → List (String × Nat)

def Tally.empty : Tally := ⟨[], fun _ => 0, fun _ => []⟩

/-- One hit of a lane. -/
def Tally.vote (t : Tally) (lane : String) (candId : String) (rank : Nat) (contrib : ℚ) : Tally where
  ids := if candId ∈ t.ids then t.ids else t.ids ++ [candId]
  score := Function.update t.score candId (t.score candId + contrib)
  laneRanks := Function.update t.laneRanks candId (t.laneRanks candId ++ [(lane, rank)])

/-- The hits of a lane from a rank on. -/
def voteFrom (k : ℚ) (weights : Weights) (lane : String) : Nat → List String → Tally → Except FusionError Tally
  | _, [], t => .ok t
  | rank, candId :: hits, t => do
    let contrib ← computeRrfLaneScore k weights lane rank
    voteFrom k weights lane (rank + 1) hits (t.vote lane candId rank contrib)

/-- The lanes one after the other, each with its first hits. -/
def voteLanes (k : ℚ) (weights : Weights) : List (String × List String) → Tally → Except FusionError Tally
  | [], t => .ok t
  | (lane, ranking) :: lanes, t => do
    let t ← voteFrom k weights lane 1 (firstHits ranking) t
    voteLanes k weights lanes t

structure Fused where
  candidateId : String
  score : ℚ
  laneRanks : List (String × Nat)
  deriving DecidableEq

/-- By descending score, ties by id. -/
def fusedKey (score : String → ℚ) (id : String) : ℚ ×ₗ String := toLex (-score id, id)

/-- `rrf_fuse_lanes`. -/
def rrfFuseLanes (k : ℚ) (weights : Weights) (L : LaneRankings) : Except FusionError (List Fused) :=
  match (weights.getD []).find? fun w => decide (w.2 < 0) with
  | some (lane, weight) => .error (.weightFor lane weight)
  | none => do
    let t ← voteLanes k weights (orderBy Prod.fst L.lanes) Tally.empty
    .ok ((orderBy (fusedKey t.score) t.ids).map fun id => ⟨id, t.score id, t.laneRanks id⟩)

/-! ## The count -/

section Count

variable (k : ℚ) (weights : Weights)

/-- What a lane adds to the score of an id. -/
def contribution (id : String) (lane : String × List String) : ℚ :=
  if id ∈ lane.2 then weightOf weights lane.1 / (k + rank id lane.2) else 0

/-- The ranks of an id in the lanes that have it. -/
def ranksIn (id : String) (lanes : List (String × List String)) : List (String × Nat) :=
  lanes.filterMap fun lane => if id ∈ lane.2 then some (lane.1, rank id lane.2) else none

/-- The sum of the contributions. -/
def fusedScore (lanes : List (String × List String)) (id : String) : ℚ := (lanes.map (contribution k weights id)).sum

/-- What a run over lanes adds to a tally. -/
structure Counts (lanes : List (String × List String)) (t t' : Tally) : Prop where
  nodup : t.ids.Nodup → t'.ids.Nodup
  ids : ∀ id, id ∈ t'.ids ↔ id ∈ t.ids ∨ ∃ lane ∈ lanes, id ∈ lane.2
  score : ∀ id, t'.score id = t.score id + fusedScore k weights lanes id
  laneRanks : ∀ id, t'.laneRanks id = t.laneRanks id ++ ranksIn id lanes

variable {k weights}

theorem computeRrfLaneScore_ok {lane : String} {rank : Nat} {contrib : ℚ}
    (h : computeRrfLaneScore k weights lane rank = .ok contrib) :
    1 ≤ k ∧ contrib = weightOf weights lane / (k + rank) := by
  unfold computeRrfLaneScore at h
  split at h
  · cases h
  split at h
  · cases h
  next hk =>
    split at h
    · cases h
    · exact ⟨not_lt.1 hk, (Except.ok.inj h).symm⟩

/-- The hits from a rank on, none of them twice. -/
theorem voteFrom_ok {lane : String} : ∀ {rank : Nat} {hits : List String} {t t' : Tally}, hits.Nodup →
    voteFrom k weights lane rank hits t = .ok t' →
    (t.ids.Nodup → t'.ids.Nodup) ∧ (∀ id, id ∈ t'.ids ↔ id ∈ t.ids ∨ id ∈ hits) ∧
      (∀ id, t'.score id = t.score id +
        if id ∈ hits then weightOf weights lane / (k + (hits.idxOf id + rank : Nat)) else 0) ∧
      ∀ id, t'.laneRanks id = t.laneRanks id ++ if id ∈ hits then [(lane, hits.idxOf id + rank)] else []
  | rank, [], t, t', _, h => by
    obtain rfl := Except.ok.inj h
    simp
  | rank, candId :: hits, t, t', hnodup, h => by
    obtain ⟨hnew, hnodup⟩ := List.nodup_cons.1 hnodup
    obtain ⟨contrib, hcontrib, h⟩ := bind_eq_ok.1 h
    obtain ⟨-, rfl⟩ := computeRrfLaneScore_ok hcontrib
    obtain ⟨hids, hmem, hscore, hranks⟩ := voteFrom_ok hnodup h
    refine ⟨fun ht => hids ?_, fun id => ?_, fun id => ?_, fun id => ?_⟩
    · unfold Tally.vote
      dsimp only
      split
      · exact ht
      · next hcand => exact List.nodup_append_comm.1 (List.nodup_cons.2 ⟨hcand, ht⟩)
    · have hvote : id ∈ (t.vote lane candId rank (weightOf weights lane / (k + rank))).ids ↔ id ∈ t.ids ∨ id = candId := by
        unfold Tally.vote
        dsimp only
        split
        · next hcand => exact ⟨Or.inl, fun h => h.elim (fun h => h) fun h => h ▸ hcand⟩
        · simp
      rw [hmem, hvote, List.mem_cons, or_assoc]
    · rw [hscore]
      by_cases hid : id = candId
      · subst hid
        simp [Tally.vote, hnew]
      · have hne : candId ≠ id := fun h => hid h.symm
        simp only [Tally.vote, Function.update_of_ne hid, List.mem_cons, hid, false_or, List.idxOf_cons_ne hits hne]
        congr 3
        push_cast
        ring
    · rw [hranks]
      by_cases hid : id = candId
      · subst hid
        simp [Tally.vote, hnew]
      · have hne : candId ≠ id := fun h => hid h.symm
        simp only [Tally.vote, Function.update_of_ne hid, List.mem_cons, hid, false_or, List.idxOf_cons_ne hits hne]
        rw [Nat.succ_eq_add_one, Nat.add_right_comm, Nat.add_assoc]

theorem voteLanes_ok : ∀ {lanes : List (String × List String)} {t t' : Tally}, voteLanes k weights lanes t = .ok t' →
    Counts k weights lanes t t'
  | [], t, t', h => by
    obtain rfl := Except.ok.inj h
    exact ⟨fun h => h, by simp, by simp [fusedScore], by simp [ranksIn]⟩
  | (lane, ranking) :: lanes, t, t', h => by
    obtain ⟨t₁, h₁, h⟩ := bind_eq_ok.1 h
    obtain ⟨hnodup, hids, hscore, hranks⟩ := voteFrom_ok (firstHits_nodup ranking) h₁
    have hrest := voteLanes_ok h
    refine ⟨fun ht => hrest.nodup (hnodup ht), fun id => ?_, fun id => ?_, fun id => ?_⟩
    · rw [hrest.ids, hids, mem_firstHits, List.exists_mem_cons_iff, or_assoc]
    · rw [hrest.score, hscore, fusedScore, fusedScore, List.map_cons, List.sum_cons, add_assoc, contribution]
      simp only [mem_firstHits]
      by_cases hid : id ∈ ranking
      · rw [if_pos hid, if_pos hid, idxOf_firstHits hid]
      · rw [if_neg hid, if_neg hid]
    · rw [hrest.laneRanks, hranks, ranksIn, ranksIn, List.append_assoc]
      simp only [mem_firstHits]
      by_cases hid : id ∈ ranking
      · simp only [List.filterMap_cons, hid, if_true, idxOf_firstHits hid, List.singleton_append]
      · simp only [List.filterMap_cons, hid, if_false, List.nil_append]

/-- What the code accepts: a smoothing constant of at least one, unless no lane ranks anything. -/
def Accepted (k : ℚ) (weights : Weights) (lanes : List (String × List String)) : Prop :=
  (∀ w ∈ weights.getD [], 0 ≤ w.2) ∧ (1 ≤ k ∨ ∀ lane ∈ lanes, lane.2 = [])

theorem weightOf_nonneg (h : ∀ w ∈ weights.getD [], 0 ≤ w.2) (lane : String) : 0 ≤ weightOf weights lane := by
  have hall : ∀ w ∈ weights.getD laneWeights, 0 ≤ w.2 := by
    cases weights with
    | none => decide
    | some ws => exact h
  unfold weightOf
  cases hfind : (weights.getD laneWeights).find? fun w => decide (w.1 = lane) with
  | none => exact zero_le_one
  | some w => exact hall w (List.mem_of_find?_eq_some hfind)

theorem voteFrom_total {lane : String} (hk : 1 ≤ k) (hweight : 0 ≤ weightOf weights lane) :
    ∀ (rank : Nat) (hits : List String) (t : Tally), 1 ≤ rank → ∃ t', voteFrom k weights lane rank hits t = .ok t'
  | rank, [], t, _ => ⟨t, rfl⟩
  | rank, candId :: hits, t, hrank => by
    have hscore : computeRrfLaneScore k weights lane rank = .ok (weightOf weights lane / (k + rank)) := by
      rw [computeRrfLaneScore, if_neg (by omega), if_neg (not_lt.2 hk), if_neg (not_lt.2 hweight)]
    obtain ⟨t', h⟩ := voteFrom_total hk hweight (rank + 1) hits
      (t.vote lane candId rank (weightOf weights lane / (k + rank))) (by omega)
    exact ⟨t', bind_eq_ok.2 ⟨_, hscore, h⟩⟩

theorem voteLanes_total : ∀ {lanes : List (String × List String)} (t : Tally), Accepted k weights lanes →
    ∃ t', voteLanes k weights lanes t = .ok t'
  | [], t, _ => ⟨t, rfl⟩
  | (lane, ranking) :: lanes, t, h => by
    have hfirst : ∃ t₁, voteFrom k weights lane 1 (firstHits ranking) t = .ok t₁ := by
      rcases h.2 with hk | hempty
      · exact voteFrom_total hk (weightOf_nonneg h.1 lane) 1 _ t le_rfl
      · rw [show ranking = [] from hempty _ List.mem_cons_self]
        exact ⟨t, rfl⟩
    obtain ⟨t₁, h₁⟩ := hfirst
    obtain ⟨t', h'⟩ := voteLanes_total t₁ ⟨h.1, h.2.imp_right fun hall l hl => hall l (List.mem_cons_of_mem _ hl)⟩
    exact ⟨t', bind_eq_ok.2 ⟨t₁, h₁, h'⟩⟩

theorem accepted_of_voteLanes (hweights : ∀ w ∈ weights.getD [], 0 ≤ w.2) :
    ∀ {lanes : List (String × List String)} {t t' : Tally}, voteLanes k weights lanes t = .ok t' →
      Accepted k weights lanes
  | [], _, _, _ => ⟨hweights, Or.inr fun _ h => absurd h List.not_mem_nil⟩
  | (lane, []) :: lanes, t, t', h => by
    obtain ⟨t₁, -, h⟩ := bind_eq_ok.1 h
    refine ⟨hweights, (accepted_of_voteLanes hweights h).2.imp_right fun hall l hl => ?_⟩
    rcases List.mem_cons.1 hl with rfl | hl
    · rfl
    · exact hall l hl
  | (lane, candId :: ranking) :: lanes, t, t', h => by
    obtain ⟨t₁, h₁, -⟩ := bind_eq_ok.1 h
    obtain ⟨contrib, hcontrib, -⟩ := bind_eq_ok.1 h₁
    exact ⟨hweights, Or.inl (computeRrfLaneScore_ok hcontrib).1⟩

end Count

/-! ## The order -/

theorem fusedKey_injective (score : String → ℚ) : Function.Injective (fusedKey score) := fun _ _ h =>
  congrArg Prod.snd (toLex.injective h)

theorem fusedKey_lt {score : String → ℚ} {x y : String} :
    fusedKey score x < fusedKey score y ↔ score y < score x ∨ (score x = score y ∧ x < y) := by
  rw [fusedKey, fusedKey, Prod.Lex.toLex_lt_toLex]
  simp only [neg_lt_neg_iff, neg_inj]

theorem fusedScore_perm {k : ℚ} {weights : Weights} {lanes lanes' : List (String × List String)} (h : lanes.Perm lanes') :
    fusedScore k weights lanes = fusedScore k weights lanes' := funext fun _ => (h.map _).sum_eq

theorem Accepted.perm {k : ℚ} {weights : Weights} {lanes lanes' : List (String × List String)}
    (h : Accepted k weights lanes) (hperm : lanes.Perm lanes') : Accepted k weights lanes' :=
  ⟨h.1, h.2.imp_right fun hall lane hlane => hall lane (hperm.mem_iff.2 hlane)⟩

theorem orderBy_lanes {L L' : LaneRankings} (h : L'.lanes.Perm L.lanes) :
    orderBy Prod.fst L'.lanes = orderBy Prod.fst L.lanes :=
  orderBy_congr (fun _ hx _ hy heq => List.inj_on_of_nodup_map L'.distinct hx hy heq) h

section

variable {k : ℚ} {weights : Weights} {L L' : LaneRankings} {out : List Fused}

theorem rrfFuseLanes_ok (h : rrfFuseLanes k weights L = .ok out) : Accepted k weights L.lanes ∧
    ∃ ids : List String, ids.Nodup ∧ (∀ id, id ∈ ids ↔ ∃ lane ∈ L.lanes, id ∈ lane.2) ∧
      out = (orderBy (fusedKey (fusedScore k weights L.lanes)) ids).map fun id =>
        ⟨id, fusedScore k weights L.lanes id, ranksIn id (orderBy Prod.fst L.lanes)⟩ := by
  have hperm := orderBy_perm Prod.fst L.lanes
  unfold rrfFuseLanes at h
  split at h
  · cases h
  next hweights =>
    have hweights : ∀ w ∈ weights.getD [], 0 ≤ w.2 := fun w hw => by
      simpa using List.find?_eq_none.1 hweights w hw
    obtain ⟨t, ht, h⟩ := bind_eq_ok.1 h
    have hcounts := voteLanes_ok ht
    have hscore : t.score = fusedScore k weights L.lanes := by
      rw [← fusedScore_perm hperm]
      funext id
      rw [hcounts.score]
      exact zero_add _
    refine ⟨(accepted_of_voteLanes hweights ht).perm hperm, t.ids, hcounts.nodup List.nodup_nil, fun id => ?_, ?_⟩
    · rw [hcounts.ids]
      simp only [Tally.empty, List.not_mem_nil, false_or, hperm.mem_iff]
    · rw [← Except.ok.inj h, hscore]
      refine List.map_congr_left fun id _ => ?_
      rw [hcounts.laneRanks]
      rfl

theorem rrfFuseLanes_total (h : Accepted k weights L.lanes) : ∃ out, rrfFuseLanes k weights L = .ok out := by
  have hnone : (weights.getD []).find? (fun w => decide (w.2 < 0)) = none := by
    refine List.find?_eq_none.2 fun w hw => ?_
    simpa using h.1 w hw
  obtain ⟨t, ht⟩ := voteLanes_total Tally.empty (h.perm (orderBy_perm Prod.fst L.lanes).symm)
  unfold rrfFuseLanes
  rw [hnone]
  exact ⟨_, bind_eq_ok.2 ⟨t, ht, rfl⟩⟩

/-- Every id of the lanes once, by descending score with ties by id; the score is the sum over the lanes that rank the
id, by the rank of its first hit. -/
structure IsFusion (k : ℚ) (weights : Weights) (L : LaneRankings) (out : List Fused) : Prop where
  once : (out.map (·.candidateId)).Nodup
  members : ∀ id, id ∈ out.map (·.candidateId) ↔ ∃ lane ∈ L.lanes, id ∈ lane.2
  ordered : out.Pairwise fun x y => y.score < x.score ∨ (x.score = y.score ∧ x.candidateId < y.candidateId)
  counted : ∀ f ∈ out, f.score = fusedScore k weights L.lanes f.candidateId ∧
    f.laneRanks = ranksIn f.candidateId (orderBy Prod.fst L.lanes)

theorem rrfFuseLanes_isFusion (h : rrfFuseLanes k weights L = .ok out) : IsFusion k weights L out := by
  obtain ⟨-, ids, hnodup, hmem, rfl⟩ := rrfFuseLanes_ok h
  have hperm := orderBy_perm (fusedKey (fusedScore k weights L.lanes)) ids
  refine ⟨?_, fun id => ?_, ?_, fun f hf => ?_⟩
  · rw [List.map_map]
    exact (hperm.nodup_iff.2 hnodup).map fun _ _ h => h
  · rw [List.map_map, ← hmem, ← hperm.mem_iff]
    exact List.mem_map.trans ⟨fun ⟨_, h, heq⟩ => heq ▸ h, fun h => ⟨id, h, rfl⟩⟩
  · exact List.pairwise_map.2 ((orderBy_ascending (fusedKey_injective _) hnodup).imp fun h => fusedKey_lt.1 h)
  · obtain ⟨id, -, rfl⟩ := List.mem_map.1 hf
    exact ⟨rfl, rfl⟩

/-! ## Moving up -/

/-- The id moves up in one lane, by the hits `b`, which shift down. -/
def MovedUp (x : String) (L L' : LaneRankings) : Prop :=
  ∃ front lane a b c rest, L.lanes = front ++ (lane, a ++ (b ++ x :: c)) :: rest ∧
    L'.lanes = front ++ (lane, a ++ x :: (b ++ c)) :: rest

theorem contribution_le {k : ℚ} {id lane : String} {ranking ranking' : List String} (hk : 1 ≤ k)
    (hweight : 0 ≤ weightOf weights lane) (hmem : id ∈ ranking ↔ id ∈ ranking') (hrank : rank id ranking' ≤ rank id ranking) :
    contribution k weights id (lane, ranking) ≤ contribution k weights id (lane, ranking') := by
  unfold contribution
  simp only [hmem]
  split
  · have hcast : (rank id ranking' : ℚ) ≤ rank id ranking := Nat.cast_le.2 hrank
    have hpos : (0 : ℚ) ≤ rank id ranking' := Nat.cast_nonneg _
    exact div_le_div_of_nonneg_left hweight (by linarith) (by linarith)
  · exact le_rfl

theorem MovedUp.mem_iff {x : String} (h : MovedUp x L L') (id : String) :
    (∃ lane ∈ L'.lanes, id ∈ lane.2) ↔ ∃ lane ∈ L.lanes, id ∈ lane.2 := by
  obtain ⟨front, lane, a, b, c, rest, hL, hL'⟩ := h
  have hmem : id ∈ a ++ x :: (b ++ c) ↔ id ∈ a ++ (b ++ x :: c) := by
    simp only [List.mem_append, List.mem_cons]
    tauto
  rw [hL, hL']
  simp only [List.mem_append, List.mem_cons, or_and_right, exists_or, exists_eq_left]
  simp only [← List.mem_append, ← List.mem_cons, hmem]

/-- The score of the id that moves up does not fall, and no other score rises. -/
theorem MovedUp.score {x : String} (h : MovedUp x L L') (hk : 1 ≤ k) (hweights : ∀ w ∈ weights.getD [], 0 ≤ w.2) :
    fusedScore k weights L.lanes x ≤ fusedScore k weights L'.lanes x ∧
      ∀ y ≠ x, fusedScore k weights L'.lanes y ≤ fusedScore k weights L.lanes y := by
  obtain ⟨front, lane, a, b, c, rest, hL, hL'⟩ := h
  have hmem : ∀ id, id ∈ a ++ (b ++ x :: c) ↔ id ∈ a ++ x :: (b ++ c) := fun id => by
    simp only [List.mem_append, List.mem_cons]
    tauto
  have hweight := weightOf_nonneg hweights lane
  unfold fusedScore
  rw [hL, hL']
  simp only [List.map_append, List.map_cons, List.sum_append, List.sum_cons]
  constructor
  · have hle := contribution_le hk hweight (hmem x) (rank_moved x a b c)
    linarith
  · intro y hy
    have hle := contribution_le hk hweight (hmem y).symm (rank_passed (Ne.symm hy) a b c)
    linarith

theorem voteLanes_firstHits : ∀ (lanes : List (String × List String)) (t : Tally),
    voteLanes k weights (lanes.map fun lane => (lane.1, firstHits lane.2)) t = voteLanes k weights lanes t
  | [], _ => rfl
  | (lane, ranking) :: lanes, t => by
    rw [List.map_cons, voteLanes, voteLanes, firstHits_firstHits]
    refine congrArg _ (funext fun t' => ?_)
    exact voteLanes_firstHits lanes t'

/-- The fusion of the lanes: it is one, the order in which the lanes are given and hits after the first in a lane do
not show, and an id that moves up in a lane does not end further down. -/
theorem rrfFuseLanes_laws (k : ℚ) (weights : Weights) (L : LaneRankings) :
    (∀ L' : LaneRankings, L'.lanes.Perm L.lanes → rrfFuseLanes k weights L' = rrfFuseLanes k weights L) ∧
      (∀ L' : LaneRankings, L'.lanes = (L.lanes.map fun lane => (lane.1, firstHits lane.2)) →
        rrfFuseLanes k weights L' = rrfFuseLanes k weights L) ∧
      ∀ out, rrfFuseLanes k weights L = .ok out → IsFusion k weights L out ∧
        ∀ x L', MovedUp x L L' → ∃ out', rrfFuseLanes k weights L' = .ok out' ∧
          (out'.map (·.candidateId)).idxOf x ≤ (out.map (·.candidateId)).idxOf x := by
  refine ⟨fun L' hperm => ?_, fun L' hhits => ?_, fun out h => ⟨rrfFuseLanes_isFusion h, fun x L' hmoved => ?_⟩⟩
  · unfold rrfFuseLanes
    rw [orderBy_lanes hperm]
  · have horder : orderBy Prod.fst L'.lanes =
        (orderBy Prod.fst L.lanes).map fun lane => (lane.1, firstHits lane.2) := by
      rw [hhits]
      exact (map_orderBy (fun _ => rfl) L.lanes).symm
    unfold rrfFuseLanes
    rw [horder, voteLanes_firstHits]
  · obtain ⟨haccepted, ids, hnodup, hmem, rfl⟩ := rrfFuseLanes_ok h
    have hx : ∃ lane ∈ L.lanes, x ∈ lane.2 := by
      obtain ⟨front, lane, a, b, c, rest, hL, -⟩ := hmoved
      exact ⟨(lane, a ++ (b ++ x :: c)), by rw [hL]; simp, by simp⟩
    have hk : 1 ≤ k := haccepted.2.resolve_right fun hempty => by
      obtain ⟨lane, hlane, hx⟩ := hx
      rw [hempty lane hlane] at hx
      cases hx
    obtain ⟨out', h'⟩ := rrfFuseLanes_total (L := L') ⟨haccepted.1, Or.inl hk⟩
    obtain ⟨-, ids', hnodup', hmem', rfl⟩ := rrfFuseLanes_ok h'
    obtain ⟨hgain, hlose⟩ := hmoved.score hk haccepted.1
    refine ⟨_, h', ?_⟩
    simp only [List.map_map, Function.comp_def, List.map_id']
    refine idxOf_orderBy_le (fusedKey_injective _) (fusedKey_injective _) hnodup hnodup' (fun y => ?_) ((hmem x).2 hx) ?_
    · rw [hmem', hmem, hmoved.mem_iff]
    · intro y _ hlt
      by_cases hyx : y = x
      · subst hyx
        exact absurd hlt (lt_irrefl _)
      have hy := hlose y hyx
      rw [fusedKey_lt] at hlt ⊢
      rcases hlt with hlt | ⟨heq, hlt⟩
      · exact Or.inl (by linarith)
      · rcases lt_or_eq_of_le (show fusedScore k weights L.lanes x ≤ fusedScore k weights L.lanes y by linarith) with h | h
        · exact Or.inl h
        · exact Or.inr ⟨h.symm, hlt⟩

end

end Mesa.Retrieval.Fusion
