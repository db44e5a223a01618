import Mathlib.Data.List.Perm.Subperm
import Mathlib.Data.List.Sigma
import Obelus.Agent.Compaction

/-!
# Removal from the middle

The tool responses that an attempt to compact leaves out.  Out from the middle the loop
goes to the left first, so that among an odd number its last place is off the left end,
and one tool response stays where all are to go.
-/

namespace Obelus.Agent

open List

variable {ι : Type} {messages : List (Message ι)} {indices : List Nat}
  {percent size step other place count : Nat}

/-- The places of the messages with a tool response. -/
def toolIndices (messages : List (Message ι)) : List Nat :=
  messages.zipIdx.filterMap fun entry => if hasToolResponse entry.1 then some entry.2 else none

/-- The places of the messages that are left out. -/
def removedIndices (messages : List (Message ι)) (percent : Nat) : List Nat :=
  indicesToRemove (toolIndices messages) (max ((toolIndices messages).length * percent / 100) 1)

/-- The other messages are kept in order, the promised number of tool responses is left
out, and with a larger percentage these are left out as well. -/
structure RemovesPromised (messages : List (Message ι)) (percent : Nat) : Prop where
  keeps : filterToolResponses messages percent = messages.zipIdx.filterMap fun entry =>
    if entry.2 ∈ removedIndices messages percent then none else some entry.1
  distinct : (removedIndices messages percent).Nodup
  responses : removedIndices messages percent ⊆ toolIndices messages
  promised : toolIndices messages ≠ [] → (removedIndices messages percent).length =
    max 1 ((toolIndices messages).length * percent / 100)
  all : percent = 100 → toolIndices messages ⊆ removedIndices messages percent
  grows : ∀ larger, percent ≤ larger → larger ≤ 100 →
    removedIndices messages percent ⊆ removedIndices messages larger

theorem nodup_toolIndices (messages : List (Message ι)) : (toolIndices messages).Nodup := by
  apply (pairwise_map.mp (nodup_zipIdx_map_snd messages)).filterMap
  intro first second differ index isFirst same isSecond
  split at isFirst <;> cases isFirst
  split at isSecond <;> cases isSecond
  exact differ

/-- The place that a step of the loop goes to. -/
def middleOut (size step : Nat) : Option Nat :=
  if step % 2 = 0 then if step / 2 < size / 2 then some (size / 2 - step / 2 - 1) else none
  else if size / 2 + step / 2 < size then some (size / 2 + step / 2) else none

theorem indicesToRemove_eq : indicesToRemove indices count =
    (range count).filterMap fun step =>
      (middleOut indices.length step).bind (indices[·]?) := by
  unfold indicesToRemove middleOut
  refine filterMap_congr fun step _ => ?_
  dsimp only
  split
  · split <;> rfl
  · split <;> rfl

theorem lt_of_middleOut (goes : middleOut size step = some place) : place < size := by
  unfold middleOut at goes
  split at goes <;> split at goes <;> cases goes <;> omega

theorem middleOut_inj (goes : middleOut size step = some place)
    (otherGoes : middleOut size other = some place) : step = other := by
  unfold middleOut at goes otherGoes
  split at goes <;> split at goes <;> cases goes <;>
    split at otherGoes <;> split at otherGoes <;> simp at otherGoes <;> omega

/-- Of as many steps as there are places, only the last among an odd number is off. -/
theorem middleOut_eq_none_iff (inside : step < size) :
    middleOut size step = none ↔ size % 2 = 1 ∧ step + 1 = size := by
  unfold middleOut
  split <;> split <;> simp <;> omega

theorem nodup_indicesToRemove (nodup : indices.Nodup) : (indicesToRemove indices count).Nodup := by
  rw [indicesToRemove_eq]
  refine nodup_range.filterMap fun step other index isStep isOther => ?_
  obtain ⟨place, goes, here⟩ := Option.bind_eq_some_iff.mp isStep
  obtain ⟨otherPlace, otherGoes, there⟩ := Option.bind_eq_some_iff.mp isOther
  have inside := (List.getElem?_eq_some_iff.mp here).1
  obtain rfl := (getElem?_inj inside nodup).mp (here.trans there.symm)
  exact middleOut_inj goes otherGoes

theorem indicesToRemove_subset : indicesToRemove indices count ⊆ indices := by
  rw [indicesToRemove_eq]
  intro index removed
  obtain ⟨step, -, isStep⟩ := mem_filterMap.mp removed
  obtain ⟨place, -, here⟩ := Option.bind_eq_some_iff.mp isStep
  exact mem_of_getElem? here

theorem length_indicesToRemove_iff (enough : count ≤ indices.length) (some : 0 < count) :
    (indicesToRemove indices count).length = count ↔
      indices.length % 2 = 0 ∨ count < indices.length := by
  have goes : ∀ step ∈ range count,
      ((middleOut indices.length step).bind (indices[·]?)).isSome ↔
        ¬(indices.length % 2 = 1 ∧ step + 1 = indices.length) := by
    intro step inRange
    rw [← middleOut_eq_none_iff ((mem_range.mp inRange).trans_le enough)]
    cases isPlace : middleOut indices.length step with
    | none => simp
    | some place => simp [lt_of_middleOut isPlace]
  rw [indicesToRemove_eq, length_filterMap_eq_countP]
  nth_rewrite 2 [← length_range (n := count)]
  rw [countP_eq_length, forall₂_congr goes]
  constructor
  · intro all
    have last := all (count - 1) (mem_range.mpr (by omega))
    omega
  · intro even step inRange
    have inside := mem_range.mp inRange
    omega

/-- The promise holds where the responses are of an even number, or of an odd one of which
not all are to go. -/
theorem removesPromised_iff (positive : 1 ≤ percent) (bounded : percent ≤ 100) :
    RemovesPromised messages percent ↔ (toolIndices messages).length % 2 = 0 ∨
      (toolIndices messages).length ≠ 1 ∧ percent ≠ 100 := by
  have whole : (toolIndices messages).length * percent ≤ (toolIndices messages).length * 100 :=
    Nat.mul_le_mul_left _ bounded
  have part : percent ≠ 100 →
      (toolIndices messages).length * percent ≤ (toolIndices messages).length * 99 := fun notAll =>
    Nat.mul_le_mul_left _ (by omega)
  have promised (some : toolIndices messages ≠ []) : (removedIndices messages percent).length =
      max 1 ((toolIndices messages).length * percent / 100) ↔
      (toolIndices messages).length % 2 = 0 ∨
        (toolIndices messages).length ≠ 1 ∧ percent ≠ 100 := by
    have nonempty := length_pos_iff.mpr some
    rw [Nat.max_comm 1, removedIndices, length_indicesToRemove_iff (by omega) (by omega)]
    by_cases isAll : percent = 100
    · subst isAll
      omega
    · omega
  have distinct : (removedIndices messages percent).Nodup :=
    nodup_indicesToRemove (nodup_toolIndices messages)
  have responses : removedIndices messages percent ⊆ toolIndices messages := indicesToRemove_subset
  constructor
  · intro removes
    by_cases isSome : toolIndices messages = []
    · simp [isSome]
    · exact (promised isSome).mp (removes.promised isSome)
  · intro holds
    exact
      { keeps := by
          have unfolded : filterToolResponses messages percent =
              if toolIndices messages = [] then messages
              else messages.zipIdx.filterMap fun entry =>
                if entry.2 ∈ removedIndices messages percent then none else some entry.1 :=
            if_neg (by omega)
          rw [unfolded]
          split
          · next none =>
              have stays : removedIndices messages percent = [] :=
                subset_nil.mp (none ▸ responses)
              simp [stays]
          · rfl
        distinct
        responses
        promised := fun isSome => (promised isSome).mpr holds
        all := by
          rintro rfl
          by_cases isSome : toolIndices messages = []
          · simp [isSome]
          · have count := (promised isSome).mpr holds
            exact ((subperm_of_subset distinct responses).perm_of_length_le
              (by omega)).symm.subset
        grows := by
          intro larger more _
          unfold removedIndices
          apply filterMap_subset
          apply range_subset.mpr
          have := Nat.mul_le_mul_left (toolIndices messages).length more
          omega }

/-- The answer to a tool call. -/
def toolAnswer : Message Unit :=
  { role := .user
    created := 0
    content := [.toolResponse { id := "call", toolResult := .ok ⟨[], none⟩ }] }

/-- Of two answers the first goes. -/
theorem removesPromised_two : filterToolResponses [toolAnswer, toolAnswer] 50 = [toolAnswer] ∧
    (RemovesPromised [toolAnswer, toolAnswer] 50 ↔
      (toolIndices [toolAnswer, toolAnswer]).length % 2 = 0 ∨
        (toolIndices [toolAnswer, toolAnswer]).length ≠ 1 ∧ 50 ≠ 100) :=
  ⟨by decide, removesPromised_iff (by decide) (by decide)⟩

/-- A single answer stays where all are to go. -/
theorem single_answer_stays : filterToolResponses [toolAnswer] 100 = [toolAnswer] ∧
    ¬RemovesPromised [toolAnswer] 100 :=
  ⟨by decide, fun removes => absurd (removes.promised (by decide)) (by decide)⟩

end Obelus.Agent
