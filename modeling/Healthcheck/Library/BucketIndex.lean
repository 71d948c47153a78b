import Healthcheck.Library.Matching

/-!
A chained hash index whose entries are consumed by its lookups: whatever the collisions, a sequence
of lookups hands out a maximal matching.
-/

namespace BucketIndex

/-- Entries chained in the buckets their hashes select. -/
structure Index (ε : Type) where
  bucketCount : Nat
  buckets : Nat → List ε

variable {ε κ β : Type}

/-- The entries that can still be found. -/
def Index.Has (index : Index ε) (e : ε) : Prop :=
  ∃ bucket, e ∈ index.buckets bucket

/-- An index in which nothing has been entered. -/
def Index.empty (bucketCount : Nat) : Index ε :=
  { bucketCount, buckets := fun _ => [] }

/-- A bucket replaced by another chain. -/
def Index.setBucket (index : Index ε) (bucket : Nat) (chain : List ε) : Index ε :=
  { index with buckets := Function.update index.buckets bucket chain }

/-- A new entry stands at the front of its bucket. -/
def Index.insert (index : Index ε) (hash : Nat) (e : ε) : Index ε :=
  index.setBucket (hash % index.bucketCount) (e :: index.buckets (hash % index.bucketCount))

/-- Unlinks the first entry of a chain that passes a test. -/
def takeFirst (test : ε → Bool) : List ε → Option (ε × List ε)
  | [] => none
  | e :: rest =>
    if test e then some (e, rest)
    else (takeFirst test rest).map fun (found, rest) => (found, e :: rest)

/-- A lookup searches the bucket its hash selects, and consumes what it finds. -/
def Index.take (index : Index ε) (hash : Nat) (test : ε → Bool) : Option ε × Index ε :=
  match takeFirst test (index.buckets (hash % index.bucketCount)) with
  | none => (none, index)
  | some (found, rest) => (some found, index.setBucket (hash % index.bucketCount) rest)

/-- Lookups one after the other, each in what the earlier ones left. -/
def Index.takes (hash : β → Nat) (test : β → ε → Bool) :
    List β → Index ε → List (Option ε) × Index ε
  | [], index => ([], index)
  | request :: rest, index =>
    let (found, index) := index.take (hash request) (test request)
    let (others, index) := takes hash test rest index
    (found :: others, index)

/-- Every entry stands once, in the bucket of its hash. -/
structure Index.Sound (hash : ε → Nat) (index : Index ε) : Prop where
  placed : ∀ bucket, ∀ e ∈ index.buckets bucket, bucket = hash e % index.bucketCount
  nodup : ∀ bucket, (index.buckets bucket).Nodup

/-- A changed bucket leaves the number of buckets. -/
@[simp] theorem bucketCount_setBucket (index : Index ε) (bucket : Nat) (chain : List ε) :
    (index.setBucket bucket chain).bucketCount = index.bucketCount :=
  rfl

/-- A bucket holds the new chain if it was changed, and else what it held. -/
theorem mem_setBucket {index : Index ε} {bucket other : Nat} {chain : List ε} {e : ε} :
    e ∈ (index.setBucket bucket chain).buckets other ↔
      if other = bucket then e ∈ chain else e ∈ index.buckets other := by
  -- The other buckets are not touched.
  unfold Index.setBucket
  by_cases same : other = bucket
  · subst same
    simp
  · simp [same]

/-- A bucket may be replaced by a chain of distinct entries that belong in it. -/
theorem sound_setBucket {hash : ε → Nat} {index : Index ε} (sound : index.Sound hash)
    {bucket : Nat} {chain : List ε} (distinct : chain.Nodup)
    (belong : ∀ e ∈ chain, bucket = hash e % index.bucketCount) :
    (index.setBucket bucket chain).Sound hash := by
  -- The changed bucket is sound by the hypotheses, and the others were before.
  constructor
  · intro other e member
    rw [mem_setBucket] at member
    by_cases same : other = bucket
    · rw [if_pos same] at member
      rw [same]
      exact belong e member
    · rw [if_neg same] at member
      exact sound.placed other e member
  · intro other
    unfold Index.setBucket
    by_cases same : other = bucket
    · subst same
      simpa using distinct
    · simpa [same] using sound.nodup other

/-- The empty index is sound. -/
theorem sound_empty (hash : ε → Nat) (bucketCount : Nat) :
    (Index.empty bucketCount : Index ε).Sound hash := by
  -- No bucket holds anything.
  constructor
  · intro bucket e member
    cases member
  · intro bucket
    exact List.nodup_nil

/-- An insertion adds its entry and keeps the others. -/
theorem has_insert {index : Index ε} {hash : Nat} {e x : ε} :
    (index.insert hash e).Has x ↔ x = e ∨ index.Has x := by
  unfold Index.insert Index.Has
  simp only [mem_setBucket]
  constructor
  · rintro ⟨bucket, member⟩
    split at member
    · rcases List.mem_cons.mp member with same | old
      · exact .inl same
      · exact .inr ⟨_, old⟩
    · exact .inr ⟨bucket, member⟩
  · rintro (same | ⟨bucket, old⟩)
    · exact ⟨hash % index.bucketCount, by simp [same]⟩
    · -- An old entry is still in its bucket, behind the new one if the bucket is the same.
      refine ⟨bucket, ?_⟩
      split
      · rename_i same
        rw [← same]
        exact List.mem_cons_of_mem _ old
      · exact old

/-- A new entry is put where its hash says. -/
theorem sound_insert {hash : ε → Nat} {index : Index ε} (sound : index.Sound hash) {e : ε}
    (fresh : ¬ index.Has e) : (index.insert (hash e) e).Sound hash := by
  -- The new entry goes to the bucket of its hash, where it was not before.
  apply sound_setBucket sound
  · exact List.nodup_cons.mpr ⟨fun old => fresh ⟨_, old⟩, sound.nodup _⟩
  · intro x member
    rcases List.mem_cons.mp member with same | old
    · rw [same]
    · exact sound.placed _ x old

/-- A failed search means that no entry of the chain passes. -/
theorem takeFirst_none {test : ε → Bool} {chain : List ε} (failed : takeFirst test chain = none) :
    ∀ e ∈ chain, test e = false := by
  -- Induction on the chain: the search fails at its head and in its rest.
  induction chain with
  | nil =>
    intro e member
    cases member
  | cons first rest ih =>
    unfold takeFirst at failed
    split at failed
    · cases failed
    · rename_i unsuited
      intro e member
      rcases List.mem_cons.mp member with same | later
      · rw [same]
        simpa using unsuited
      · exact ih (Option.map_eq_none_iff.mp failed) e later

/-- A search that succeeds moves the found entry out of the chain, which keeps its order. -/
theorem takeFirst_some {test : ε → Bool} {chain rest : List ε} {found : ε}
    (succeeded : takeFirst test chain = some (found, rest)) :
    test found = true ∧ ∃ front back, chain = front ++ found :: back ∧ rest = front ++ back := by
  induction chain generalizing rest with
  | nil => cases succeeded
  | cons first others ih =>
    unfold takeFirst at succeeded
    split at succeeded
    · -- The first entry passes.
      rename_i suited
      cases succeeded
      exact ⟨suited, [], others, rfl, rfl⟩
    · -- The first entry stays, and the search goes on behind it.
      obtain ⟨⟨later, kept⟩, deeper, same⟩ := Option.map_eq_some_iff.mp succeeded
      cases same
      obtain ⟨suited, front, back, split, left⟩ := ih deeper
      exact ⟨suited, first :: front, back, by rw [split]; rfl, by rw [left]; rfl⟩

section Take

variable {hash : ε → Nat} {index : Index ε} (sound : index.Sound hash) {hashed : Nat}
  {test : ε → Bool} (agreed : ∀ e, test e = true → hash e = hashed)

include sound agreed in
/-- A lookup that finds nothing leaves no entry behind that it could have found. -/
theorem take_none (failed : (index.take hashed test).1 = none) :
    (index.take hashed test).2 = index ∧ ∀ e, index.Has e → test e = false := by
  unfold Index.take at failed ⊢
  cases searched : takeFirst test (index.buckets (hashed % index.bucketCount)) with
  | some result =>
    rw [searched] at failed
    cases failed
  | none =>
    refine ⟨rfl, ?_⟩
    intro e present
    obtain ⟨bucket, member⟩ := present
    -- An entry that passes would have been in the bucket that was searched.
    by_contra suited
    rw [Bool.not_eq_false] at suited
    have here := sound.placed bucket e member
    rw [agreed e suited] at here
    rw [here] at member
    rw [takeFirst_none searched e member] at suited
    cases suited

include sound in
/-- A lookup that finds an entry removes that one only. -/
theorem take_some {found : ε} (succeeded : (index.take hashed test).1 = some found) :
    test found = true ∧ index.Has found ∧ (index.take hashed test).2.Sound hash ∧
      ∀ e, (index.take hashed test).2.Has e ↔ index.Has e ∧ e ≠ found := by
  unfold Index.take at succeeded ⊢
  cases searched : takeFirst test (index.buckets (hashed % index.bucketCount)) with
  | none =>
    rw [searched] at succeeded
    cases succeeded
  | some result =>
    obtain ⟨entry, rest⟩ := result
    rw [searched] at succeeded
    cases succeeded
    obtain ⟨suited, front, back, chain, left⟩ := takeFirst_some searched
    have distinct := sound.nodup (hashed % index.bucketCount)
    rw [chain] at distinct
    have parted := List.nodup_middle.mp distinct
    have outside : found ∉ front ++ back := (List.nodup_cons.mp parted).1
    have member : found ∈ index.buckets (hashed % index.bucketCount) := by simp [chain]
    -- What is left of the chain was in it.
    have before : ∀ e ∈ front ++ back, e ∈ index.buckets (hashed % index.bucketCount) := by
      intro e kept
      rw [chain]
      rcases List.mem_append.mp kept with early | late
      · exact List.mem_append_left _ early
      · exact List.mem_append_right _ (List.mem_cons_of_mem _ late)
    refine ⟨suited, ⟨_, member⟩, ?_, ?_⟩
    · rw [left]
      exact sound_setBucket sound (List.nodup_cons.mp parted).2
        (fun e kept => sound.placed _ e (before e kept))
    · intro e
      show (index.setBucket _ rest).Has e ↔ _
      unfold Index.Has
      simp only [mem_setBucket, left]
      constructor
      · intro present
        obtain ⟨bucket, kept⟩ := present
        split at kept
        · refine ⟨⟨_, before e kept⟩, ?_⟩
          intro same
          rw [same] at kept
          exact outside kept
        · rename_i elsewhere
          refine ⟨⟨bucket, kept⟩, ?_⟩
          intro same
          rw [same] at kept
          -- The found entry's hash puts it in one bucket only.
          exact elsewhere ((sound.placed _ _ kept).trans (sound.placed _ _ member).symm)
      · intro present
        obtain ⟨⟨bucket, old⟩, other⟩ := present
        refine ⟨bucket, ?_⟩
        split
        · rename_i same
          rw [same, chain] at old
          simpa [other] using old
        · exact old

end Take

/-- The first request takes its entry before the others take theirs. -/
@[simp] theorem takes_cons (hash : β → Nat) (test : β → ε → Bool) (request : β) (rest : List β)
    (index : Index ε) : (index.takes hash test (request :: rest)).1 =
      (index.take (hash request) (test request)).1 ::
        ((index.take (hash request) (test request)).2.takes hash test rest).1 :=
  rfl

/-- Nothing is found where nothing was entered. -/
theorem takes_empty (hash : β → Nat) (test : β → ε → Bool) (requests : List β) (bucketCount : Nat) :
    ((Index.empty bucketCount).takes hash test requests).1 = requests.map fun _ => none := by
  -- Induction on the requests: nothing is ever found, and nothing changes.
  induction requests with
  | nil => rfl
  | cons request rest ih =>
    rw [takes_cons, List.map_cons, ← ih]
    rfl

/-- Lookups by key, in an index that holds exactly some entries, make a maximal matching. -/
theorem takes_maximal [DecidableEq ε] [DecidableEq κ] {key : ε → κ} {want : β → κ}
    {hash : ε → Nat} {hashed : β → Nat} {test : β → ε → Bool}
    (tested : ∀ request e, test request e = true ↔ key e = want request)
    (agreed : ∀ request e, key e = want request → hash e = hashed request) (requests : List β)
    {index : Index ε} (sound : index.Sound hash) {entries : Finset ε}
    (held : ∀ e, index.Has e ↔ e ∈ entries) :
    Matching.Maximal entries key (requests.map want) (index.takes hashed test requests).1 := by
  -- Induction on the lookups; the entries shrink by what the first one takes.
  induction requests generalizing index entries with
  | nil => exact Matching.maximal_nil entries key
  | cons request rest ih =>
    have meets : ∀ e, test request e = true → hash e = hashed request :=
      fun e suited => agreed request e ((tested request e).mp suited)
    rw [takes_cons, List.map_cons]
    cases taken : (index.take (hashed request) (test request)).1 with
    | none =>
      obtain ⟨same, nothing⟩ := take_none sound meets taken
      rw [same]
      apply Matching.maximal_cons_none (ih sound held)
      intro e entry keyed
      have unsuited := nothing e ((held e).mpr entry)
      rw [(tested request e).mpr keyed] at unsuited
      cases unsuited
    | some found =>
      obtain ⟨suited, present, sound', left⟩ := take_some sound taken
      apply Matching.maximal_cons_some ((held found).mp present) ((tested request found).mp suited)
      apply ih sound'
      intro e
      rw [left e, held e, Finset.mem_erase]
      exact and_comm

section Order

variable [LinearOrder ε]

/-- Every chain goes from larger entries to smaller ones. -/
def Index.Descending (index : Index ε) : Prop :=
  ∀ bucket, (index.buckets bucket).Pairwise (· > ·)

/-- A bucket that is replaced by a descending chain keeps the index descending. -/
theorem descending_setBucket {index : Index ε} (descending : index.Descending) {bucket : Nat}
    {chain : List ε} (sorted : chain.Pairwise (· > ·)) :
    (index.setBucket bucket chain).Descending := by
  -- Only the changed bucket has to be looked at.
  intro other
  unfold Index.setBucket
  by_cases same : other = bucket
  · subst same
    simpa using sorted
  · simpa [same] using descending other

/-- The empty index is descending. -/
theorem descending_empty (bucketCount : Nat) : (Index.empty bucketCount : Index ε).Descending :=
  -- An empty chain has no two entries.
  fun _ => .nil

/-- An entry larger than all others belongs at the front of its chain. -/
theorem descending_insert {index : Index ε} (descending : index.Descending) {hash : Nat} {e : ε}
    (largest : ∀ x, index.Has x → x < e) : (index.insert hash e).Descending := by
  -- The new entry goes before smaller ones.
  apply descending_setBucket descending
  exact List.pairwise_cons.mpr ⟨fun x member => largest x ⟨_, member⟩, descending _⟩

/-- In such a chain a search finds the largest entry that passes. -/
theorem takeFirst_largest {test : ε → Bool} {chain rest : List ε} {found : ε}
    (sorted : chain.Pairwise (· > ·)) (succeeded : takeFirst test chain = some (found, rest)) :
    ∀ e ∈ chain, test e = true → e ≤ found := by
  induction chain generalizing rest with
  | nil => cases succeeded
  | cons first others ih =>
    obtain ⟨below, sorted'⟩ := List.pairwise_cons.mp sorted
    unfold takeFirst at succeeded
    intro e member suited
    split at succeeded
    · -- The first entry passes, and the others are smaller.
      cases succeeded
      rcases List.mem_cons.mp member with same | later
      · exact le_of_eq same
      · exact le_of_lt (below e later)
    · rename_i unsuited
      obtain ⟨⟨later, kept⟩, deeper, pair⟩ := Option.map_eq_some_iff.mp succeeded
      cases pair
      rcases List.mem_cons.mp member with same | later
      · rw [same] at suited
        exact absurd suited unsuited
      · exact ih sorted' deeper e later suited

/-- A lookup finds the largest entry that passes, and keeps the chains in order. -/
theorem take_largest {hash : ε → Nat} {index : Index ε} (sound : index.Sound hash)
    (descending : index.Descending) {hashed : Nat} {test : ε → Bool}
    (agreed : ∀ e, test e = true → hash e = hashed) {found : ε}
    (succeeded : (index.take hashed test).1 = some found) :
    (∀ e, index.Has e → test e = true → e ≤ found) ∧
      (index.take hashed test).2.Descending := by
  unfold Index.take at succeeded ⊢
  cases searched : takeFirst test (index.buckets (hashed % index.bucketCount)) with
  | none =>
    rw [searched] at succeeded
    cases succeeded
  | some result =>
    obtain ⟨entry, rest⟩ := result
    rw [searched] at succeeded
    cases succeeded
    constructor
    · intro e present suited
      obtain ⟨bucket, member⟩ := present
      -- Whatever passes is in the bucket that was searched.
      have here := sound.placed bucket e member
      rw [agreed e suited] at here
      rw [here] at member
      exact takeFirst_largest (descending _) searched e member suited
    · obtain ⟨_, front, back, chain, left⟩ := takeFirst_some searched
      apply descending_setBucket descending
      have sorted := descending (hashed % index.bucketCount)
      rw [chain] at sorted
      rw [left]
      exact sorted.sublist ((List.sublist_cons_self found back).append_left front)

/-- Lookups by key, in an index with descending chains, take the largest entries first. -/
theorem takes_latest {key : ε → κ} (want : β → κ)
    {hash : ε → Nat} {hashed : β → Nat} {test : β → ε → Bool}
    (tested : ∀ request e, test request e = true ↔ key e = want request)
    (agreed : ∀ request e, key e = want request → hash e = hashed request) (requests : List β)
    {index : Index ε} (sound : index.Sound hash) (descending : index.Descending)
    {entries : Finset ε} (held : ∀ e, index.Has e ↔ e ∈ entries) :
    Matching.Latest entries key (index.takes hashed test requests).1 := by
  -- Induction on the lookups; the entries shrink by what the first one takes.
  induction requests generalizing index entries with
  | nil => exact Matching.latest_nil entries key
  | cons request rest ih =>
    have meets : ∀ e, test request e = true → hash e = hashed request :=
      fun e suited => agreed request e ((tested request e).mp suited)
    rw [takes_cons]
    cases taken : (index.take (hashed request) (test request)).1 with
    | none =>
      rw [(take_none sound meets taken).1]
      exact Matching.latest_cons_none (ih sound descending held)
    | some found =>
      obtain ⟨suited, _, sound', left⟩ := take_some sound taken
      obtain ⟨largest, descending'⟩ := take_largest sound descending meets taken
      apply Matching.latest_cons_some
      · intro e entry keyed
        apply largest e ((held e).mpr entry)
        rw [tested, keyed, ← (tested request found).mp suited]
      · apply ih sound' descending'
        intro e
        rw [left e, held e, Finset.mem_erase]
        exact and_comm

end Order

end BucketIndex
