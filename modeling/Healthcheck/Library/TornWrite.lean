import Mathlib.Data.List.Basic
import Mathlib.Logic.Relation
import Healthcheck.Library.DoubleSlot

/-!
A doubly buffered record under a lock whose holder may die: records are copied field by field, a
holder may die between any two steps, and the next holder starts from whatever was left.
-/

namespace DoubleSlot

open Relation

/-- How a record of type `α` is copied one field at a time. -/
structure Layout (α ι : Type) where
  /-- One field of the first record, written into the second. -/
  copy : ι → α → α → α
  /-- Two records have the same value in one field. -/
  agree : ι → α → α → Prop
  copied : ∀ k source target, agree k (copy k source target) source
  kept : ∀ j k source target, agree k target source → agree k (copy j source target) source
  whole : ∀ a b, (∀ k, agree k a b) → a = b

variable {α ι P : Type}

/-- The remaining fields, copied in order. -/
def Layout.finish (layout : Layout α ι) (fields : List ι) (source target : α) : α :=
  fields.foldl (fun target k => layout.copy k source target) target

/-- A field agrees once it has been copied, or when it agreed before. -/
theorem Layout.agree_finish (layout : Layout α ι) {fields : List ι} {source target : α} {k : ι}
    (agreed : k ∈ fields ∨ layout.agree k target source) :
    layout.agree k (layout.finish fields source target) source := by
  -- Induction on the fields; a later copy never spoils an agreement.
  induction fields generalizing target with
  | nil => simpa [finish] using agreed
  | cons j rest ih =>
    apply ih
    rcases agreed with member | before
    · rcases List.mem_cons.mp member with same | later
      · right
        rw [← same]
        exact layout.copied k source target
      · left
        exact later
    · right
      exact layout.kept j k source target before

/-- Copying every field copies the record, in any order and whatever was there before. -/
theorem Layout.finish_complete (layout : Layout α ι) {fields : List ι}
    (complete : ∀ k, k ∈ fields) (source target : α) :
    layout.finish fields source target = source := by
  -- Every field agrees with the source.
  apply layout.whole
  intro k
  exact layout.agree_finish (Or.inl (complete k))

/-- A copy in progress: from or into a slot, with the fields that are left. -/
structure Copying (α ι : Type) where
  slot : Fin 2
  left : List ι
  record : α

/-- A record in shared memory, its lock, and what its holder is doing. -/
structure Machine (α ι P : Type) where
  memory : DoubleSlot α
  holder : Option P := none
  alive : P → Bool := fun _ => true
  /-- The publication in progress; its record is the one to be published. -/
  writing : Option (Copying α ι) := none
  /-- The read in progress; its record is what has been read so far. -/
  reading : Option (Copying α ι) := none
  /-- The records passed to a publication, newest first. -/
  passed : List α := []
  /-- The records whose publication stored its word, newest first. -/
  completed : List α := []
  /-- What reads have returned, each with the current record at that moment. -/
  returned : List (α × α) := []

/-- One step of the machine. -/
inductive Machine.Step [DecidableEq P] (layout : Layout α ι) (tag : α → Nat) :
    Machine α ι P → Machine α ι P → Prop
  | take (m : Machine α ι P) (p : P) (free : m.holder = none) (alive : m.alive p = true) :
      Step layout tag m { m with holder := some p }
  | release (m : Machine α ι P) (p : P) (holds : m.holder = some p) (alive : m.alive p = true)
      (done : m.writing = none ∧ m.reading = none) : Step layout tag m { m with holder := none }
  /-- A process dies; what it was doing under the lock stops where it is. -/
  | die (m : Machine α ι P) (p : P) (alive : m.alive p = true) :
      Step layout tag m
        { m with alive := Function.update m.alive p false
                 writing := if m.holder = some p then none else m.writing
                 reading := if m.holder = some p then none else m.reading }
  /-- The lock of a dead holder is taken from it. -/
  | recover (m : Machine α ι P) (p : P) (holds : m.holder = some p) (dead : m.alive p = false) :
      Step layout tag m { m with holder := none }
  /-- A publication begins, with the fields in any order. -/
  | begin (m : Machine α ι P) (p : P) (record : α) (fields : List ι) (holds : m.holder = some p)
      (alive : m.alive p = true) (idle : m.writing = none ∧ m.reading = none)
      (complete : ∀ k, k ∈ fields) :
      Step layout tag m
        { m with writing := some ⟨index m.memory.spare, fields, record⟩
                 passed := record :: m.passed }
  /-- One field is written into the spare slot. -/
  | write (m : Machine α ι P) (slot : Fin 2) (k : ι) (left : List ι) (record : α)
      (writing : m.writing = some ⟨slot, k :: left, record⟩) :
      Step layout tag m
        { m with memory := { m.memory with
                   slots := Function.update m.memory.slots slot
                     (layout.copy k record (m.memory.slots slot)) }
                 writing := some ⟨slot, left, record⟩ }
  /-- The word is stored once every field is written. -/
  | store (m : Machine α ι P) (slot : Fin 2) (record : α)
      (writing : m.writing = some ⟨slot, [], record⟩) :
      Step layout tag m
        { m with memory := { m.memory with published := m.memory.spare ||| tag record }
                 writing := none
                 completed := record :: m.completed }
  /-- A read begins, into a buffer with any contents. -/
  | load (m : Machine α ι P) (p : P) (buffer : α) (fields : List ι) (holds : m.holder = some p)
      (alive : m.alive p = true) (idle : m.writing = none ∧ m.reading = none)
      (complete : ∀ k, k ∈ fields) :
      Step layout tag m
        { m with reading := some ⟨index m.memory.published, fields, buffer⟩ }
  /-- One field is read. -/
  | read (m : Machine α ι P) (slot : Fin 2) (k : ι) (left : List ι) (buffer : α)
      (reading : m.reading = some ⟨slot, k :: left, buffer⟩) :
      Step layout tag m
        { m with reading := some ⟨slot, left, layout.copy k (m.memory.slots slot) buffer⟩ }
  /-- A read returns once every field is read. -/
  | return_ (m : Machine α ι P) (slot : Fin 2) (buffer : α)
      (reading : m.reading = some ⟨slot, [], buffer⟩) :
      Step layout tag m
        { m with reading := none
                 returned := (buffer, m.memory.current) :: m.returned }

/-- The record of the last completed publication, or the one the memory started with. -/
def Machine.latest (zero : α) (m : Machine α ι P) : α :=
  m.completed.head?.getD zero

/-- What holds between any two steps. -/
structure Machine.Intact (layout : Layout α ι) (tag : α → Nat) (zero : α)
    (m : Machine α ι P) : Prop where
  current : m.memory.current = m.latest zero
  tagged : m.memory.published / 2 = tag (m.latest zero) / 2
  writing : ∀ copying, m.writing = some copying → m.reading = none ∧
    copying.slot = index m.memory.spare ∧
    layout.finish copying.left copying.record (m.memory.slots copying.slot) = copying.record ∧
    copying.record ∈ m.passed
  reading : ∀ copying, m.reading = some copying → m.writing = none ∧
    copying.slot = index m.memory.published ∧
    layout.finish copying.left m.memory.current copying.record = m.memory.current
  completed : ∀ record ∈ m.completed, record ∈ m.passed
  returned : ∀ pair ∈ m.returned, pair.1 = pair.2 ∧ (pair.1 = zero ∨ pair.1 ∈ m.completed)

/-- The machine before any publication. -/
def Machine.start (zero : α) : Machine α ι P :=
  { memory := { published := 0, slots := fun _ => zero } }

/-- A memory that is all zero is intact. -/
theorem Machine.intact_start (layout : Layout α ι) {tag : α → Nat} {zero : α}
    (untagged : tag zero = 0) : (Machine.start zero : Machine α ι P).Intact layout tag zero := by
  -- No process has written, and no record was published.
  constructor
  · rfl
  · show 0 / 2 = tag zero / 2
    rw [untagged]
  · intro copying none
    cases none
  · intro copying none
    cases none
  · intro record member
    cases member
  · intro pair member
    cases member

/-- The record that is current is the first one or was completed. -/
theorem Machine.latest_known (zero : α) (m : Machine α ι P) :
    m.latest zero = zero ∨ m.latest zero ∈ m.completed := by
  -- The latest record is the first one or a completed one.
  unfold Machine.latest
  cases m.completed with
  | nil => left; rfl
  | cons record older => right; exact List.mem_cons_self

/-- A slot number is zero or one, so naming the spare slot does not change it. -/
theorem index_spare_or {tag : Nat} (even : tag % 2 = 0) (d : DoubleSlot α) :
    index (d.spare ||| tag) = index d.spare :=
  index_or_tag d.spare even

/-- Every step keeps the record intact. -/
theorem Machine.intact_step [DecidableEq P] {layout : Layout α ι} {tag : α → Nat} {zero : α}
    (even : ∀ record, tag record % 2 = 0) {m m' : Machine α ι P}
    (intact : m.Intact layout tag zero) (step : Machine.Step layout tag m m') :
    m'.Intact layout tag zero := by
  obtain ⟨current, tagged, writing, reading, completed, returned⟩ := intact
  cases step with
  | take p free alive => exact ⟨current, tagged, writing, reading, completed, returned⟩
  | release p holds alive done => exact ⟨current, tagged, writing, reading, completed, returned⟩
  | recover p holds dead => exact ⟨current, tagged, writing, reading, completed, returned⟩
  | die p alive =>
    -- A half-written spare slot is left behind; nobody reads it.
    by_cases mine : m.holder = some p
    · refine ⟨current, tagged, fun copying some_ => ?_, fun copying some_ => ?_, completed,
        returned⟩
      · simp [mine] at some_
      · simp [mine] at some_
    · refine ⟨current, tagged, fun copying some_ => ?_, fun copying some_ => ?_, completed,
        returned⟩
      · simp only [mine, if_false] at some_ ⊢
        exact writing copying some_
      · simp only [mine, if_false] at some_ ⊢
        exact reading copying some_
  | begin p record fields holds alive idle complete =>
    refine ⟨current, tagged, fun copying some_ => ?_, fun copying some_ => ?_,
      fun record member => List.mem_cons_of_mem _ (completed record member), returned⟩
    · cases some_
      exact ⟨idle.2, rfl, layout.finish_complete complete _ _, List.mem_cons_self⟩
    · rw [idle.2] at some_
      cases some_
  | write slot k left record busy =>
    obtain ⟨quiet, spare, finished, passed⟩ := writing _ busy
    subst spare
    -- The spare slot is not the current one.
    have kept := current_update_spare m.memory
      (layout.copy k record (m.memory.slots (index m.memory.spare)))
    refine ⟨kept.trans current, tagged, fun copying some_ => ?_, fun copying some_ => ?_,
      completed, returned⟩
    · cases some_
      refine ⟨quiet, rfl, ?_, passed⟩
      show layout.finish left record (Function.update m.memory.slots (index m.memory.spare)
        (layout.copy k record (m.memory.slots (index m.memory.spare)))
          (index m.memory.spare)) = record
      rw [Function.update_self]
      exact finished
    · rw [quiet] at some_
      cases some_
  | store slot record busy =>
    obtain ⟨quiet, spare, finished, passed⟩ := writing _ busy
    subst spare
    have whole : m.memory.slots (index m.memory.spare) = record := finished
    refine ⟨?_, ?_, fun copying some_ => ?_, fun copying some_ => ?_, fun other member => ?_,
      fun pair member => ?_⟩
    · show m.memory.slots (index (m.memory.spare ||| tag record)) = record
      rw [index_spare_or (even record), whole]
    · exact published_div_two m.memory record
    · cases some_
    · rw [quiet] at some_
      cases some_
    · rcases List.mem_cons.mp member with same | older
      · rw [same]
        exact passed
      · exact completed other older
    · obtain ⟨same, known⟩ := returned pair member
      exact ⟨same, known.imp id (List.mem_cons_of_mem _)⟩
  | load p buffer fields holds alive idle complete =>
    refine ⟨current, tagged, fun copying some_ => ?_, fun copying some_ => ?_, completed, returned⟩
    · rw [idle.1] at some_
      cases some_
    · cases some_
      exact ⟨idle.1, rfl, layout.finish_complete complete _ _⟩
  | read slot k left buffer busy =>
    obtain ⟨quiet, named, finished⟩ := reading _ busy
    subst named
    refine ⟨current, tagged, fun copying some_ => ?_, fun copying some_ => ?_, completed, returned⟩
    · rw [quiet] at some_
      cases some_
    · cases some_
      exact ⟨quiet, rfl, finished⟩
  | return_ slot buffer busy =>
    obtain ⟨quiet, named, finished⟩ := reading _ busy
    have whole : buffer = m.memory.current := finished
    refine ⟨current, tagged, fun copying some_ => ?_, fun copying some_ => ?_, completed,
      fun pair member => ?_⟩
    · rw [quiet] at some_
      cases some_
    · cases some_
    · rcases List.mem_cons.mp member with same | older
      · subst same
        refine ⟨whole, ?_⟩
        rw [whole, current]
        exact m.latest_known zero
      · exact returned pair older

/-- The writes of a publication nobody disturbs. -/
theorem Machine.writes_run [DecidableEq P] {layout : Layout α ι} {tag : α → Nat}
    (m : Machine α ι P) (slot : Fin 2) (fields : List ι) (record : α)
    (writing : m.writing = some ⟨slot, fields, record⟩) :
    ReflTransGen (Machine.Step layout tag) m
      { m with memory := { m.memory with
                 slots := Function.update m.memory.slots slot
                   (layout.finish fields record (m.memory.slots slot)) }
               writing := some ⟨slot, [], record⟩ } := by
  -- Induction on the fields that are left.
  induction fields generalizing m with
  | nil =>
    have same : m = { m with memory := { m.memory with
        slots := Function.update m.memory.slots slot
          (layout.finish [] record (m.memory.slots slot)) }
                             writing := some ⟨slot, [], record⟩ } := by
      rw [← writing]
      simp [Layout.finish]
    rw [← same]
  | cons k rest ih =>
    refine .head (.write m slot k rest record writing) ?_
    have later := ih { m with
      memory := { m.memory with
        slots := Function.update m.memory.slots slot
          (layout.copy k record (m.memory.slots slot)) }
      writing := some ⟨slot, rest, record⟩ } rfl
    simpa [Layout.finish] using later

/-- An undisturbed publication has the effect of the whole publication. -/
theorem Machine.publish_run [DecidableEq P] {layout : Layout α ι} {tag : α → Nat}
    {fields : List ι} (complete : ∀ k, k ∈ fields) (m : Machine α ι P) (p : P) (record : α)
    (holds : m.holder = some p) (alive : m.alive p = true)
    (idle : m.writing = none ∧ m.reading = none) :
    ReflTransGen (Machine.Step layout tag) m
      { m with memory := publish (tag record) m.memory record
               passed := record :: m.passed
               completed := record :: m.completed } := by
  refine .head (.begin m p record fields holds alive idle complete) ?_
  -- Every field, and then the word.
  have written : ReflTransGen (Machine.Step layout tag) _ _ := Machine.writes_run
    { m with writing := some ⟨index m.memory.spare, fields, record⟩
             passed := record :: m.passed } (index m.memory.spare) fields record rfl
  have stored := written.tail (.store _ (index m.memory.spare) record rfl)
  simpa [layout.finish_complete complete, publish, spare, idle.1] using stored

end DoubleSlot
