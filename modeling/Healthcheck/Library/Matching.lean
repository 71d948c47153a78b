import Mathlib.Combinatorics.Enumerative.DoubleCounting
import Mathlib.Data.List.Basic

/-! What a sequence of requests receives when each takes one entry of its own key, if one is left. -/

namespace Matching

variable {ε κ : Type}

/-- No entry is given twice, each goes to a request of its key, and a request that receives nothing
leaves no entry of its key behind. -/
structure Maximal (entries : Finset ε) (key : ε → κ) (requests : List κ)
    (given : List (Option ε)) : Prop where
  length : given.length = requests.length
  known : ∀ (i : Nat) e, given[i]? = some (some e) → e ∈ entries ∧ requests[i]? = some (key e)
  once : ∀ (i j : Nat) e, given[i]? = some (some e) → given[j]? = some (some e) → i = j
  -- Whatever could have been given was given to an earlier request.
  exhausted : ∀ i : Nat, given[i]? = some none → ∀ e ∈ entries, requests[i]? = some (key e) →
    ∃ j < i, given[j]? = some (some e)

/-- Without requests nothing is given. -/
theorem maximal_nil (entries : Finset ε) (key : ε → κ) : Maximal entries key [] [] := by
  -- There is no request that could receive anything.
  constructor
  · rfl
  · intro i e given
    simp at given
  · intro i j e given
    simp at given
  · intro i given
    simp at given

/-- A first request may go without when no entry has its key. -/
theorem maximal_cons_none {entries : Finset ε} {key : ε → κ} {requests : List κ}
    {given : List (Option ε)} {k : κ} (later : Maximal entries key requests given)
    (nothing : ∀ e ∈ entries, key e ≠ k) :
    Maximal entries key (k :: requests) (none :: given) := by
  -- The first request finds nothing, so all entries are left to the later ones.
  constructor
  · simp [later.length]
  · intro i e given
    cases i with
    | zero => simp at given
    | succ i => exact later.known i e (by simpa using given)
  · intro i j e first second
    cases i with
    | zero => simp at first
    | succ i =>
      cases j with
      | zero => simp at second
      | succ j =>
        exact congrArg (· + 1) (later.once i j e (by simpa using first) (by simpa using second))
  · intro i given e entry wanted
    cases i with
    | zero => exact absurd (by simpa using wanted.symm) (nothing e entry)
    | succ i =>
      obtain ⟨j, before, holds⟩ :=
        later.exhausted i (by simpa using given) e entry (by simpa using wanted)
      exact ⟨j + 1, by omega, by simpa using holds⟩

/-- A first request may take an entry of its key, which the later ones do without. -/
theorem maximal_cons_some [DecidableEq ε] {entries : Finset ε} {key : ε → κ} {requests : List κ}
    {given : List (Option ε)} {k : κ} {found : ε} (present : found ∈ entries)
    (keyed : key found = k) (later : Maximal (entries.erase found) key requests given) :
    Maximal entries key (k :: requests) (some found :: given) := by
  -- What the first request took is not given to a later one.
  have gone : ∀ n : Nat, given[n]? ≠ some (some found) := by
    intro n again
    exact Finset.notMem_erase found entries (later.known n found again).1
  constructor
  · simp [later.length]
  · intro i e given
    cases i with
    | zero =>
      have same : found = e := by simpa using given
      rw [← same, keyed]
      exact ⟨present, rfl⟩
    | succ i =>
      obtain ⟨entry, wanted⟩ := later.known i e (by simpa using given)
      exact ⟨Finset.mem_of_mem_erase entry, by simpa using wanted⟩
  · intro i j e first second
    cases i with
    | zero =>
      have same : found = e := by simpa using first
      cases j with
      | zero => rfl
      | succ j => exact absurd (by simpa [same] using second) (gone j)
    | succ i =>
      cases j with
      | zero =>
        have same : found = e := by simpa using second
        exact absurd (by simpa [same] using first) (gone i)
      | succ j =>
        exact congrArg (· + 1) (later.once i j e (by simpa using first) (by simpa using second))
  · intro i given e entry wanted
    cases i with
    | zero => simp at given
    | succ i =>
      by_cases same : e = found
      · exact ⟨0, by omega, by simp [same]⟩
      · obtain ⟨j, before, holds⟩ := later.exhausted i (by simpa using given) e
          (Finset.mem_erase.mpr ⟨same, entry⟩) (by simpa using wanted)
        exact ⟨j + 1, by omega, by simpa using holds⟩

/-- A request that is in the list received an entry or nothing. -/
theorem received {entries : Finset ε} {key : ε → κ} {requests : List κ} {given : List (Option ε)}
    (maximal : Maximal entries key requests given) {i : Nat} (inside : i < requests.length)
    (something : given[i]? ≠ some none) : ∃ e, given[i]? = some (some e) := by
  -- A request within the list received an entry or nothing.
  have within : i < given.length := by rw [maximal.length]; exact inside
  rw [List.getElem?_eq_getElem within] at something ⊢
  cases entry : given[i] with
  | none => exact absurd (by rw [entry]) something
  | some e => exact ⟨e, rfl⟩

variable [DecidableEq ε] [DecidableEq κ]

/-- The requests for a key. -/
def wanting (requests : List κ) (k : κ) : Finset Nat :=
  (Finset.range requests.length).filter fun i => requests[i]? = some k

/-- The requests for a key that received an entry. -/
def served (requests : List κ) (given : List (Option ε)) (k : κ) : Finset Nat :=
  (wanting requests k).filter fun i => given[i]? ≠ some none

/-- A request served for a key holds an entry of that key. -/
theorem served_entry {entries : Finset ε} {key : ε → κ} {requests : List κ}
    {given : List (Option ε)} (maximal : Maximal entries key requests given) {k : κ} {i : Nat}
    (member : i ∈ served requests given k) :
    ∃ e ∈ entries.filter (key · = k), given[i]? = some (some e) := by
  simp only [served, wanting, Finset.mem_filter, Finset.mem_range] at member
  obtain ⟨⟨inside, wanted⟩, something⟩ := member
  obtain ⟨e, holds⟩ := received maximal inside something
  obtain ⟨entry, same⟩ := maximal.known i e holds
  -- The entry's key is the key that was asked for.
  have keyed : key e = k := by
    rw [wanted, Option.some.injEq] at same
    exact same.symm
  exact ⟨e, Finset.mem_filter.mpr ⟨entry, keyed⟩, holds⟩

/-- Requests served for a key hold different entries of it. -/
theorem served_card_le {entries : Finset ε} {key : ε → κ} {requests : List κ}
    {given : List (Option ε)} (maximal : Maximal entries key requests given) (k : κ) :
    (served requests given k).card ≤ (entries.filter (key · = k)).card := by
  -- Each served request is sent to the entry it holds.
  apply Finset.card_le_card_of_forall_subsingleton (fun i e => given[i]? = some (some e))
  · intro i member
    exact served_entry maximal member
  · intro e _ i first j second
    exact maximal.once i j e first.2 second.2

/-- Once a request for a key received nothing, every entry of the key is held by a request. -/
theorem served_card_ge {entries : Finset ε} {key : ε → κ} {requests : List κ}
    {given : List (Option ε)} (maximal : Maximal entries key requests given) {k : κ} {i : Nat}
    (wanted : requests[i]? = some k) (nothing : given[i]? = some none) :
    (entries.filter (key · = k)).card ≤ (served requests given k).card := by
  -- Each entry is sent to the earlier request that holds it.
  apply Finset.card_le_card_of_forall_subsingleton (fun e j => given[j]? = some (some e))
  · intro e member
    obtain ⟨entry, keyed⟩ := Finset.mem_filter.mp member
    obtain ⟨j, _, holds⟩ := maximal.exhausted i nothing e entry (by rw [wanted, keyed])
    have asked := (maximal.known j e holds).2
    obtain ⟨inside, _⟩ := List.getElem?_eq_some_iff.mp asked
    refine ⟨j, ?_, holds⟩
    simp only [served, wanting, Finset.mem_filter, Finset.mem_range]
    exact ⟨⟨inside, by rw [asked, keyed]⟩, by rw [holds]; simp⟩
  · intro j _ e first e' second
    have same := first.2.symm.trans second.2
    simpa using same

/-- For every key, as many requests are served as there are entries, or requests, of it. -/
theorem served_card {entries : Finset ε} {key : ε → κ} {requests : List κ}
    {given : List (Option ε)} (maximal : Maximal entries key requests given) (k : κ) :
    (served requests given k).card =
      min (entries.filter (key · = k)).card (wanting requests k).card := by
  have few : (served requests given k).card ≤ (wanting requests k).card :=
    Finset.card_filter_le _ _
  have most := served_card_le maximal k
  by_cases full : ∃ i ∈ wanting requests k, given[i]? = some none
  · -- Some request went without, so the entries ran out.
    obtain ⟨i, member, nothing⟩ := full
    have wanted := (Finset.mem_filter.mp member).2
    have least := served_card_ge maximal wanted nothing
    omega
  · -- Nobody went without, so every request was served.
    have everyone : served requests given k = wanting requests k := by
      apply Finset.filter_true_of_mem
      intro i member nothing
      exact full ⟨i, member, nothing⟩
    rw [everyone] at most ⊢
    omega

section Latest

omit [DecidableEq κ]

variable [LinearOrder ε]

/-- Whoever receives an entry finds the larger entries of its key given away before. -/
def Latest (entries : Finset ε) (key : ε → κ) (given : List (Option ε)) : Prop :=
  ∀ (i : Nat) e, given[i]? = some (some e) → ∀ e' ∈ entries, key e' = key e → e < e' →
    ∃ j < i, given[j]? = some (some e')

omit [DecidableEq ε] in
/-- Where nothing was given, the latest was. -/
theorem latest_nil (entries : Finset ε) (key : ε → κ) : Latest entries key [] := by
  -- No entry was given.
  intro i e given
  simp at given

omit [DecidableEq ε] in
/-- A first request that goes without changes nothing for the later ones. -/
theorem latest_cons_none {entries : Finset ε} {key : ε → κ} {given : List (Option ε)}
    (later : Latest entries key given) : Latest entries key (none :: given) := by
  -- The first request holds nothing, and the others are shifted by one.
  intro i e held e' entry keyed larger
  cases i with
  | zero => simp at held
  | succ i =>
    obtain ⟨j, before, holds⟩ := later i e (by simpa using held) e' entry keyed larger
    exact ⟨j + 1, by omega, by simpa using holds⟩

omit [DecidableEq ε] in
/-- A first request may take the largest entry of its key. -/
theorem latest_cons_some [DecidableEq ε] {entries : Finset ε} {key : ε → κ}
    {given : List (Option ε)} {found : ε}
    (largest : ∀ e ∈ entries, key e = key found → e ≤ found)
    (later : Latest (entries.erase found) key given) :
    Latest entries key (some found :: given) := by
  -- The first request holds the largest entry of its key; the others have the rest.
  intro i e held e' entry keyed larger
  cases i with
  | zero =>
    have same : found = e := by simpa using held
    rw [same] at largest
    exact absurd larger (not_lt.mpr (largest e' entry keyed))
  | succ i =>
    by_cases same : e' = found
    · exact ⟨0, by omega, by simp [same]⟩
    · obtain ⟨j, before, holds⟩ := later i e (by simpa using held) e'
        (Finset.mem_erase.mpr ⟨same, entry⟩) keyed larger
      exact ⟨j + 1, by omega, by simpa using holds⟩

end Latest

/-- The requests for a key among the first ones. -/
def earlier (requests : List κ) (i : Nat) (k : κ) : Finset Nat :=
  (wanting requests k).filter (· < i)

/-- The entries of a key that are larger than one of them. -/
def larger [LinearOrder ε] (entries : Finset ε) (key : ε → κ) (e : ε) : Finset ε :=
  entries.filter fun e' => key e' = key e ∧ e < e'

section Mirror

variable [LinearOrder ε] {entries : Finset ε} {key : ε → κ} {requests : List κ}
  {given : List (Option ε)}

omit [DecidableEq ε] in
/-- A request before one that is served received a larger entry of the same key. -/
theorem earlier_larger (maximal : Maximal entries key requests given)
    (latest : Latest entries key given) {i j : Nat} {e : ε} (held : given[i]? = some (some e))
    (before : j < i) (same : requests[j]? = some (key e)) :
    ∃ e' ∈ larger entries key e, given[j]? = some (some e') := by
  have entry := (maximal.known i e held).1
  -- It was not the one to find nothing: the entry of the later request was still there.
  have something : given[j]? ≠ some none := by
    intro nothing
    obtain ⟨k, first, holds⟩ := maximal.exhausted j nothing e entry same
    have again := maximal.once i k e held holds
    omega
  obtain ⟨inside, _⟩ := List.getElem?_eq_some_iff.mp same
  obtain ⟨e', holds⟩ := received maximal inside something
  obtain ⟨entry', wanted⟩ := maximal.known j e' holds
  have keyed : key e' = key e := by
    rw [same, Option.some.injEq] at wanted
    exact wanted.symm
  refine ⟨e', Finset.mem_filter.mpr ⟨entry', keyed, ?_⟩, holds⟩
  by_contra small
  rcases lt_or_eq_of_le (not_lt.mp small) with less | equal
  · -- A smaller one would mean that the larger entry had been given even earlier.
    obtain ⟨k, first, holds'⟩ := latest j e' holds e entry keyed.symm less
    have again := maximal.once i k e held holds'
    omega
  · rw [equal] at holds
    have again := maximal.once i j e held holds
    omega

omit [DecidableEq ε] in
/-- A request holds the entry that has as many larger ones of its key as there were requests for
the key before: the requests count through the entries from the largest one down. -/
theorem card_larger (maximal : Maximal entries key requests given)
    (latest : Latest entries key given) {i : Nat} {e : ε} (held : given[i]? = some (some e)) :
    (earlier requests i (key e)).card = (larger entries key e).card := by
  apply Nat.le_antisymm
  · -- Each earlier request is sent to the entry it holds.
    apply Finset.card_le_card_of_forall_subsingleton (fun j e' => given[j]? = some (some e'))
    · intro j member
      simp only [earlier, wanting, Finset.mem_filter] at member
      exact earlier_larger maximal latest held member.2 member.1.2
    · intro e' _ j first k second
      exact maximal.once j k e' first.2 second.2
  · -- Each larger entry is sent to the earlier request that holds it.
    apply Finset.card_le_card_of_forall_subsingleton (fun e' j => given[j]? = some (some e'))
    · intro e' member
      obtain ⟨entry, keyed, above⟩ := Finset.mem_filter.mp member
      obtain ⟨j, before, holds⟩ := latest i e held e' entry keyed above
      have asked := (maximal.known j e' holds).2
      obtain ⟨inside, _⟩ := List.getElem?_eq_some_iff.mp asked
      refine ⟨j, ?_, holds⟩
      simp only [earlier, wanting, Finset.mem_filter, Finset.mem_range]
      exact ⟨⟨inside, by rw [asked, keyed]⟩, before⟩
    · intro j _ e' first e'' second
      have same := first.2.symm.trans second.2
      simpa using same

end Mirror

end Matching
