import Mathlib.Algebra.Order.BigOperators.Group.List
import Mathlib.Algebra.Order.Group.Nat
import Healthcheck.Status.Snapshot

/-!
A status request that is suspended, or done, has read a prefix of its peers, each once and in order,
and has exactly the rows and the counts of what it has read.
-/

namespace Healthcheck

/-- The place of a reading: its group and its peer. -/
def Read.place (read : Read) : Nat × Nat :=
  (read.module, read.index)

/-- The row a reading leads to, when the filter shows it. -/
def Read.row (source : Option Source) (flag : Nat) (read : Read) : Option SnapshotPeer :=
  if hidden flag read.reading.state.health then none
  else (sourcePeers source)[read.index]?.map fun peer => peer.row read.reading.state.health

/-- A reading that found its peer not down. -/
def Read.up (read : Read) : Bool :=
  read.reading.state.health.down == 0

/-- What a batch added in one group: some readings in a row, their rows and their count. -/
structure Advanced (source : Option Source) (module flag : Nat) (batch : Batch)
    (new : List Read) (batch' : Batch) : Prop where
  reads : batch'.reads = batch.reads ++ new
  places : new.map Read.place =
    (List.range' batch.snapshot.next new.length).map fun i => (module, i)
  next : batch'.snapshot.next = batch.snapshot.next + new.length
  bound : batch.snapshot.next ≤ (sourcePeers source).length →
    batch'.snapshot.next ≤ (sourcePeers source).length
  rows : batch'.snapshot.peers = batch.snapshot.peers ++ new.filterMap (Read.row source flag)
  up : batch'.snapshot.up = batch.snapshot.up + new.countP Read.up
  total : batch'.snapshot.total = batch.snapshot.total
  generation : batch'.snapshot.generation = batch.snapshot.generation
  remaining : batch'.remaining + new.length = batch.remaining

/-- Nothing was read if only the script went on. -/
theorem advanced_none (source : Option Source) (module flag : Nat) (batch : Batch) (pos : Nat) :
    Advanced source module flag batch [] { batch with pos := pos } :=
  ⟨by simp, rfl, rfl, id, by simp, rfl, rfl, rfl, rfl⟩

/-- A batch after a record was read and, when the filter shows it, its row was pushed. -/
def Batch.visit (batch : Batch) (module flag : Nat) (reading : Reading) (peer : SourcePeer) :
    Batch :=
  if hidden flag reading.state.health then batch.advance module reading
  else (batch.advance module reading).push (peer.row reading.state.health)

/-- A visit goes on to the next peer. -/
theorem visit_next (batch : Batch) (module flag : Nat) (reading : Reading) (peer : SourcePeer) :
    (batch.visit module flag reading peer).snapshot.next = batch.snapshot.next + 1 := by
  -- With the row shown or hidden.
  unfold Batch.visit
  split <;> rfl

/-- A visit costs one of the budget. -/
theorem visit_remaining (batch : Batch) (module flag : Nat) (reading : Reading)
    (peer : SourcePeer) :
    (batch.visit module flag reading peer).remaining = batch.remaining - 1 := by
  -- With the row shown or hidden.
  unfold Batch.visit
  split <;> rfl

/-- One more reading at the front. -/
theorem advanced_cons {source : Option Source} {module flag : Nat} {batch batch' : Batch}
    {reading : Reading} {peer : SourcePeer} {new : List Read} (budget : batch.remaining ≠ 0)
    (found : (sourcePeers source)[batch.snapshot.next]? = some peer)
    (later : Advanced source module flag (batch.visit module flag reading peer) new batch') :
    Advanced source module flag batch
      ({ module := module, index := batch.snapshot.next, reading := reading } :: new) batch' := by
  -- The first reading and the later ones make the whole.
  obtain ⟨reads, places, next, bound, rows, up, total, generation, remaining⟩ := later
  have inside : batch.snapshot.next < (sourcePeers source).length :=
    (List.getElem?_eq_some_iff.mp found).1
  rw [visit_next] at places next bound
  rw [visit_remaining] at remaining
  refine ⟨?_, ?_, ?_, fun _ => bound inside, ?_, ?_, ?_, ?_, ?_⟩
  · rw [reads]
    unfold Batch.visit
    split <;> simp [Batch.advance, Batch.push]
  · simp only [List.map_cons, List.length_cons, List.range'_succ]
    rw [places]
    rfl
  · rw [next, List.length_cons]
    omega
  · rw [rows]
    unfold Batch.visit
    split
    · rename_i filtered
      simp [Batch.advance, Read.row, filtered]
    · rename_i shown
      simp [Batch.advance, Batch.push, Read.row, shown, found]
  · rw [up, List.countP_cons]
    unfold Batch.visit
    split <;> simp [Batch.advance, Batch.push, Read.up] <;> omega
  · rw [total]
    unfold Batch.visit
    split <;> rfl
  · rw [generation]
    unfold Batch.visit
    split <;> rfl
  · rw [List.length_cons]
    omega

/-- A pass of the loop ends the batch, or visits the first peer that is left. -/
inductive Pass (script : Nat → Reading) (module flag : Nat) (peer : SourcePeer)
    (rest : List SourcePeer) (batch : Batch) : Collected × Batch → Prop
  | busy (spent : batch.remaining = 0) : Pass script module flag peer rest batch (.busy, batch)
  | unbound (missing : peer.shm = false) : Pass script module flag peer rest batch (.error, batch)
  | full (budget : batch.remaining ≠ 0) (refused : (script batch.pos).pushed = false) :
      Pass script module flag peer rest batch (.error, batch.advance module (script batch.pos))
  | again (contended : (script batch.pos).locked = false) :
      Pass script module flag peer rest batch (.again, { batch with pos := batch.pos + 1 })
  | visit (budget : batch.remaining ≠ 0) : Pass script module flag peer rest batch
      (stepLoop script module flag rest (batch.visit module flag (script batch.pos) peer))

/-- A pass stops, fails or visits its peer and goes on. -/
theorem stepLoop_pass (script : Nat → Reading) (module flag : Nat) (peer : SourcePeer)
    (rest : List SourcePeer) (batch : Batch) :
    Pass script module flag peer rest batch (stepLoop script module flag (peer :: rest) batch) := by
  -- The tests in the order of the source.
  unfold stepLoop
  split
  · rename_i spent
    exact .busy spent
  · rename_i budget
    split
    · rename_i unbound
      exact .unbound (by simpa using unbound)
    · dsimp only
      split
      · rename_i contended
        exact .again (by simpa using contended)
      · have visited : Pass script module flag peer rest batch _ := .visit budget
        unfold Batch.visit at visited
        split
        · rename_i filtered
          rwa [if_pos filtered] at visited
        · rename_i shown
          split
          · rename_i full
            exact .full budget (by simpa using full)
          · rwa [if_neg shown] at visited

/-- Why a batch stopped in a group. -/
structure Stopped (script : Nat → Reading) (source : Option Source) (outcome : Collected)
    (batch' : Batch) : Prop where
  ok : outcome = .ok → (sourcePeers source).length ≤ batch'.snapshot.next
  busy : outcome = .busy →
    batch'.remaining = 0 ∧ batch'.snapshot.next < (sourcePeers source).length
  again : outcome = .again → ∃ pos, (script pos).locked = false

/-- What a batch does in one group, unless it fails. -/
theorem stepLoop_advanced (script : Nat → Reading) (source : Option Source) (module flag : Nat)
    (rest : List SourcePeer) (batch : Batch)
    (left : rest = (sourcePeers source).drop batch.snapshot.next)
    (success : (stepLoop script module flag rest batch).1 ≠ .error) :
    (∃ new, Advanced source module flag batch new (stepLoop script module flag rest batch).2) ∧
      Stopped script source (stepLoop script module flag rest batch).1
        (stepLoop script module flag rest batch).2 := by
  -- Induction on the peers that are left; a pass reads the first of them or ends the batch.
  induction rest generalizing batch with
  | nil =>
    have none := advanced_none source module flag batch batch.pos
    exact ⟨⟨[], none⟩, fun _ => List.drop_eq_nil_iff.mp left.symm, by simp [stepLoop],
      by simp [stepLoop]⟩
  | cons peer rest ih =>
    have found : (sourcePeers source)[batch.snapshot.next]? = some peer := by
      have head := congrArg List.head? left
      rwa [List.head?_drop, List.head?_cons, eq_comm] at head
    have inside : batch.snapshot.next < (sourcePeers source).length :=
      (List.getElem?_eq_some_iff.mp found).1
    have tail : rest = (sourcePeers source).drop (batch.snapshot.next + 1) := by
      have tails := congrArg List.tail left
      rwa [List.tail_cons, List.tail_drop] at tails
    have pass := stepLoop_pass script module flag peer rest batch
    generalize stepLoop script module flag (peer :: rest) batch = result at pass success ⊢
    cases pass with
    | busy spent =>
      exact ⟨⟨[], advanced_none source module flag batch batch.pos⟩, by simp,
        fun _ => ⟨spent, inside⟩, by simp⟩
    | unbound missing => exact absurd rfl success
    | full budget refused => exact absurd rfl success
    | again contended =>
      exact ⟨⟨[], advanced_none source module flag batch _⟩, by simp, by simp,
        fun _ => ⟨_, contended⟩⟩
    | visit budget =>
      obtain ⟨⟨new, advanced⟩, stopped⟩ :=
        ih (batch.visit module flag (script batch.pos) peer) (by rw [visit_next, tail]) success
      exact ⟨⟨_, advanced_cons budget found advanced⟩, stopped⟩

/-- A step that did not fail read a run of neighbours and tells why it stopped. -/
theorem snapshotStep_advanced (script : Nat → Reading) (module flag : Nat)
    (source : Option Source) (batch : Batch)
    (success : (snapshotStep script module flag source batch).1 ≠ .error) :
    (∃ new, Advanced source module flag batch new
    (snapshotStep script module flag source batch).2) ∧
      Stopped script source (snapshotStep script module flag source batch).1
        (snapshotStep script module flag source batch).2 :=
  -- A group without a source has no peers.
  stepLoop_advanced script source module flag _ batch rfl success

/-- The places of the first readings of a group. -/
def placesBelow (module next : Nat) : List (Nat × Nat) :=
  (List.range next).map fun i => (module, i)

/-- The places below a sum are those below the first part and the next ones. -/
theorem placesBelow_add (module next more : Nat) : placesBelow module (next + more) =
    placesBelow module next ++ (List.range' next more).map fun i => (module, i) := by
  -- A range is split at its middle.
  unfold placesBelow
  have split := List.range'_append_1 (s := 0) (m := next) (n := more)
  rw [← List.map_append, List.range_eq_range', List.range_eq_range', ← split, Nat.zero_add]

/-- The readings of one group. -/
def Collector.readsOf (c : Collector) (module : Nat) : List Read :=
  c.reads.filter fun read => read.module == module

/-- The number of peers in a group. -/
def Collector.size (c : Collector) (module : Nat) : Nat :=
  (sourcePeers (c.sources module)).length

/-- A group's snapshot belongs to a prefix of its peers, all of them read. -/
structure Group (c : Collector) (module : Nat) : Prop where
  bound : (c.snapshots module).next ≤ c.size module
  total : (c.snapshots module).total = c.size module
  rows : (c.snapshots module).peers =
    (c.readsOf module).filterMap (Read.row (c.sources module) c.flag)
  up : (c.snapshots module).up = (c.readsOf module).countP Read.up

/-- Every group's snapshot belongs to what was read, the groups before the current one are done,
and those behind it are untouched. -/
structure Processed (c : Collector) : Prop where
  module_le : c.module ≤ c.count
  groups : ∀ module, Group c module
  earlier : ∀ module < c.module, (c.snapshots module).next = c.size module
  later : ∀ module, c.module < module ∨ c.count ≤ module → (c.snapshots module).next = 0
  ordered : c.reads.map Read.place =
    (List.range (c.module + 1)).flatMap fun module => placesBelow module (c.snapshots module).next

/-- Nothing was read from a fresh collector. -/
theorem init_processed (count : Nat) (sources : Nat → Option Source) (flag : Nat) :
    Processed (.init count sources flag) := by
  -- Each group starts at its first peer.
  have fresh : ∀ module, (snapshotInit (sources module)).next = 0 := by
    intro module
    cases sources module <;> rfl
  refine ⟨Nat.zero_le _, fun module => ⟨?_, ?_, ?_, ?_⟩, fun _ below => ?_, fun module _ =>
    fresh module,
    ?_⟩
  · show (snapshotInit (sources module)).next ≤ _
    rw [fresh module]
    exact Nat.zero_le _
  · show (snapshotInit (sources module)).total = (sourcePeers (sources module)).length
    cases sources module <;> rfl
  · show (snapshotInit (sources module)).peers = _
    cases sources module <;> rfl
  · show (snapshotInit (sources module)).up = _
    cases sources module <;> rfl
  · cases below
  · show [] = (List.range 1).flatMap fun module => placesBelow module
      (snapshotInit (sources module)).next
    simp [placesBelow, fresh]

/-- New readings of the current group belong to no other one. -/
theorem readsOf_put {c : Collector} {remaining : Nat} {new : List Read} {batch' : Batch}
    (advanced : Advanced (c.sources c.module) c.module c.flag (c.batch remaining) new batch')
    (module : Nat) : (c.put batch').readsOf module =
      c.readsOf module ++ if module = c.module then new else [] := by
  -- The new readings are all of the group of the step.
  have own : ∀ read ∈ new, read.module = c.module := by
    intro read found
    have place : read.place ∈ new.map Read.place := List.mem_map_of_mem found
    rw [advanced.places] at place
    obtain ⟨i, _, same⟩ := List.mem_map.mp place
    exact (congrArg Prod.fst same).symm
  have reads : (c.put batch').reads = c.reads ++ new := advanced.reads
  rw [Collector.readsOf, reads, List.filter_append]
  congr 1
  split
  · rename_i same
    exact List.filter_eq_self.mpr fun read found => by simp [own read found, same]
  · rename_i other
    exact List.filter_eq_nil_iff.mpr fun read found => by
      simpa [own read found] using fun same => other same.symm

/-- Working on the current group keeps the collection processed. -/
theorem put_processed {c : Collector} {remaining : Nat} {new : List Read} {batch' : Batch}
    (processed : Processed c) (open_ : c.module < c.count)
    (advanced : Advanced (c.sources c.module) c.module c.flag (c.batch remaining) new batch') :
    Processed (c.put batch') := by
  -- Only the group of the step has changed.
  have others : ∀ module, module ≠ c.module →
      (c.put batch').snapshots module = c.snapshots module :=
    fun module other => Function.update_of_ne other _ _
  have current : (c.put batch').snapshots c.module = batch'.snapshot := Function.update_self ..
  refine ⟨processed.module_le, fun module => ?_, fun module below => ?_, fun module above => ?_, ?_⟩
  · have group := processed.groups module
    by_cases same : module = c.module
    · subst same
      refine ⟨?_, ?_, ?_, ?_⟩
      · rw [current]
        exact advanced.bound group.bound
      · rw [current, advanced.total]
        exact group.total
      · rw [current, advanced.rows, readsOf_put advanced, if_pos rfl, List.filterMap_append]
        exact congrArg (· ++ _) group.rows
      · rw [current, advanced.up, readsOf_put advanced, if_pos rfl, List.countP_append]
        exact congrArg (· + _) group.up
    · refine ⟨?_, ?_, ?_, ?_⟩
      · rw [others module same]
        exact group.bound
      · rw [others module same]
        exact group.total
      · rw [others module same, readsOf_put advanced, if_neg same, List.append_nil]
        exact group.rows
      · rw [others module same, readsOf_put advanced, if_neg same, List.append_nil]
        exact group.up
  · rw [others module (Nat.ne_of_lt below)]
    exact processed.earlier module below
  · have above : c.module < module ∨ c.count ≤ module := above
    rw [others module (by omega)]
    exact processed.later module above
  · have reads : (c.put batch').reads = c.reads ++ new := advanced.reads
    show (c.put batch').reads.map Read.place = (List.range (c.module + 1)).flatMap _
    rw [reads, List.map_append, processed.ordered, advanced.places, List.range_succ,
      List.flatMap_append, List.flatMap_append, List.append_assoc]
    congr 1
    · refine List.flatMap_congr fun module below => ?_
      rw [others module (Nat.ne_of_lt (List.mem_range.mp below))]
    · simp only [List.flatMap_cons, List.flatMap_nil, List.append_nil, current, advanced.next]
      exact (placesBelow_add _ _ _).symm

/-- A group that is done gives way to the next one. -/
theorem next_processed {c : Collector} (processed : Processed c) (open_ : c.module < c.count)
    (done : (c.snapshots c.module).next = c.size c.module) :
    Processed { c with module := c.module + 1 } := by
  -- The group that is left is complete.
  have groups : ∀ module, Group { c with module := c.module + 1 } module := by
    intro module
    obtain ⟨bound, total, rows, up⟩ := processed.groups module
    exact ⟨bound, total, rows, up⟩
  refine ⟨open_, groups, fun module below => ?_, fun module above => ?_, ?_⟩
  · rcases Nat.lt_succ_iff_lt_or_eq.mp below with before | same
    · exact processed.earlier module before
    · subst same
      exact done
  · have above : c.module + 1 < module ∨ c.count ≤ module := above
    exact processed.later module (by omega)
  · show c.reads.map Read.place = (List.range (c.module + 1 + 1)).flatMap _
    rw [List.range_succ, List.flatMap_append, processed.ordered]
    have untouched := processed.later (c.module + 1) (.inl (Nat.lt_succ_self _))
    simp [untouched, placesBelow]

/-- What one batch does to a collection, unless it fails. -/
structure Batched (script : Nat → Reading) (remaining : Nat) (c : Collector) (outcome : Collected)
    (c' : Collector) : Prop where
  processed : Processed c'
  count : c'.count = c.count
  sources : c'.sources = c.sources
  flag : c'.flag = c.flag
  reads : ∃ new, c'.reads = c.reads ++ new ∧ new.length ≤ remaining ∧
    (outcome = .busy → new.length = remaining)
  ok : outcome = .ok → c'.module = c.count
  busy : outcome = .busy → c'.module < c.count ∧
    (c'.snapshots c'.module).next < c'.size c'.module
  again : outcome = .again → ∃ pos, (script pos).locked = false

/-- A batch goes through the groups in their order. -/
theorem collectLoop_batched (script : Nat → Reading) (left remaining : Nat) (c : Collector)
    (processed : Processed c) (rest : c.module + left = c.count)
    (success : (collectLoop script left remaining c).1 ≠ .error) :
    Batched script remaining c (collectLoop script left remaining c).1
      (collectLoop script left remaining c).2 := by
  -- Induction on the groups that are left; the first of them is done, or ends the batch.
  induction left generalizing remaining c with
  | zero =>
    exact ⟨processed, rfl, rfl, rfl, ⟨[], by simp [collectLoop], Nat.zero_le _,
      by simp [collectLoop]⟩,
      fun _ => rest, by simp [collectLoop], by simp [collectLoop]⟩
  | succ left ih =>
    have open_ : c.module < c.count := by omega
    unfold collectLoop at success ⊢
    dsimp only at success ⊢
    have step := snapshotStep_advanced script c.module c.flag (c.sources c.module)
      (c.batch remaining)
    generalize snapshotStep script c.module c.flag (c.sources c.module) (c.batch remaining) = result
      at step success ⊢
    obtain ⟨outcome, batch'⟩ := result
    dsimp only at step success ⊢
    by_cases done : outcome = .ok
    · subst done
      rw [if_neg (by simp)] at success ⊢
      obtain ⟨⟨new, advanced⟩, stopped⟩ := step (by simp)
      have put := put_processed processed open_ advanced
      have current : (c.put batch').snapshots c.module = batch'.snapshot := Function.update_self ..
      have whole : (c.put batch').size c.module ≤ ((c.put batch').snapshots c.module).next := by
        rw [current]
        exact stopped.ok rfl
      have next := next_processed put open_
        (Nat.le_antisymm (put.groups c.module).bound whole)
      obtain ⟨later, count, sources, flag, ⟨more, reads, within, spent⟩, ok, busy, again⟩ :=
        ih batch'.remaining { c.put batch' with module := c.module + 1 } next
          (by show c.module + 1 + left = c.count; omega) success
      have first : (c.put batch').reads = c.reads ++ new := advanced.reads
      have budget : batch'.remaining + new.length = remaining := advanced.remaining
      refine ⟨later, count, sources, flag, ⟨new ++ more, ?_, ?_, fun stops => ?_⟩, ok, busy, again⟩
      · rw [reads]
        show (c.put batch').reads ++ more = _
        rw [first, List.append_assoc]
      · rw [List.length_append]
        omega
      · have all := spent stops
        rw [List.length_append]
        omega
    · rw [if_pos done] at success ⊢
      obtain ⟨⟨new, advanced⟩, stopped⟩ := step success
      have budget : batch'.remaining + new.length = remaining := advanced.remaining
      have current : (c.put batch').snapshots c.module = batch'.snapshot := Function.update_self ..
      refine ⟨put_processed processed open_ advanced, rfl, rfl, rfl,
        ⟨new, advanced.reads, by omega, fun stops => ?_⟩, fun ok => absurd ok done,
        fun stops => ⟨open_, ?_⟩, stopped.again⟩
      · have none := (stopped.busy stops).1
        omega
      · show ((c.put batch').snapshots c.module).next < _
        rw [current]
        exact (stopped.busy stops).2

/-- A batch of a request. -/
theorem collect_batched (script : Nat → Reading) (c : Collector) (processed : Processed c)
    (success : (collect script c).1 ≠ .error) :
    Batched script statusBatch c (collect script c).1 (collect script c).2 := by
  -- All groups from the current one on are left.
  have le := processed.module_le
  exact collectLoop_batched script _ _ c processed (by omega) success

/-- A request that has been suspended, or is done, has processed a prefix. -/
theorem afterBatches_processed (script : Nat → Reading) (count : Nat)
    (sources : Nat → Option Source) (flag n : Nat)
    (success : (afterBatches script (.init count sources flag) n).1 ≠ .error) :
    Processed (afterBatches script (.init count sources flag) n).2 ∧
      (afterBatches script (.init count sources flag) n).2.count = count ∧
      (afterBatches script (.init count sources flag) n).2.sources = sources ∧
      (afterBatches script (.init count sources flag) n).2.flag = flag ∧
      ((afterBatches script (.init count sources flag) n).1 = .ok →
        (afterBatches script (.init count sources flag) n).2.module = count) := by
  -- Induction on the number of batches.
  induction n with
  | zero => exact ⟨init_processed count sources flag, rfl, rfl, rfl, by simp [afterBatches]⟩
  | succ n ih =>
    unfold afterBatches resume at success ⊢
    generalize afterBatches script (.init count sources flag) n = state at success ih ⊢
    by_cases suspended : state.1 = .again ∨ state.1 = .busy
    · rw [if_pos suspended] at success ⊢
      obtain ⟨processed, same, sources', flag', -⟩ := ih (by
        rcases suspended with again | busy
        · simp [again]
        · simp [busy])
      have batched := collect_batched script state.2 processed success
      exact ⟨batched.processed, batched.count.trans same, batched.sources.trans sources',
        batched.flag.trans flag', fun ok => (batched.ok ok).trans same⟩
    · rw [if_neg suspended] at success ⊢
      exact ih success

/-- A group's readings are those of its peers below `next`, once each and in order. -/
theorem filter_places (next : Nat → Nat) (module bound : Nat) :
    ((List.range bound).flatMap fun m => placesBelow m (next m)).filter
    (fun place => place.1 == module)
      = if module < bound then placesBelow module (next module) else [] := by
  -- Induction on the bound.
  induction bound with
  | zero => simp
  | succ bound ih =>
    rw [List.range_succ, List.flatMap_append, List.filter_append, ih]
    have last : ([bound].flatMap fun m => placesBelow m (next m)).filter
        (fun place => place.1 == module) = if bound = module then placesBelow module
          (next module) else [] := by
      rw [List.flatMap_cons, List.flatMap_nil, List.append_nil]
      split
      · rename_i same
        subst same
        exact List.filter_eq_self.mpr (by simp [placesBelow])
      · rename_i other
        exact List.filter_eq_nil_iff.mpr (by simp [placesBelow, other])
    rw [last]
    rcases Nat.lt_trichotomy module bound with below | same | above
    · rw [if_pos below, if_neg (by omega), if_pos (by omega), List.append_nil]
    · rw [if_neg (by omega), if_pos (by omega), if_pos (by omega), List.nil_append]
    · rw [if_neg (by omega), if_neg (by omega), if_neg (by omega), List.append_nil]

/-- Each group is read from its first peer on, without a gap. -/
theorem readsOf_places {c : Collector} (processed : Processed c) (module : Nat) :
    (c.readsOf module).map Read.index = List.range (c.snapshots module).next := by
  -- The places of one group are picked from those of all.
  have places : (c.readsOf module).map Read.place = placesBelow module
    (c.snapshots module).next := by
    have filtered := congrArg (List.filter fun place => place.1 == module) processed.ordered
    rw [filter_places (fun m => (c.snapshots m).next), List.filter_map] at filtered
    refine Eq.trans ?_ (filtered.trans ?_)
    · rfl
    · split
      · rfl
      · rename_i above
        have untouched := processed.later module (.inl (by omega))
        simp [untouched, placesBelow]
  have indices := congrArg (List.map Prod.snd) places
  simpa [placesBelow, Read.place, Function.comp_def] using indices

/-- A reading that is shown has a row, with the index of its peer. -/
theorem row_some {source : Option Source} {flag : Nat} {read : Read}
    (inside : read.index < (sourcePeers source).length) :
    (Read.row source flag read).map SnapshotPeer.index =
      if hidden flag read.reading.state.health then none else some read.index := by
  -- The peer of the reading is one of the source.
  unfold Read.row
  split
  · rfl
  · rw [List.getElem?_eq_getElem inside]
    cases source with
    | none => exact absurd inside (Nat.not_lt_zero _)
    | some source => exact congrArg some (source.indexed _ _ (List.getElem?_eq_getElem inside))

/-- A reading the filter shows. -/
def Read.shown (flag : Nat) (read : Read) : Bool :=
  !hidden flag read.reading.state.health

/-- The rows of a group are those of its readings that are shown, under their own indices. -/
theorem rows_indices {c : Collector} (processed : Processed c) (module : Nat) :
    (c.snapshots module).peers.map SnapshotPeer.index =
      ((c.readsOf module).filter (Read.shown c.flag)).map Read.index := by
  -- Induction on the readings: a shown one gives a row with its index, a hidden one gives none.
  have group := processed.groups module
  have inside : ∀ read ∈ c.readsOf module, read.index <
    (sourcePeers (c.sources module)).length := by
    intro read found
    have index : read.index ∈ (c.readsOf module).map Read.index := List.mem_map_of_mem found
    rw [readsOf_places processed module, List.mem_range] at index
    exact Nat.lt_of_lt_of_le index group.bound
  rw [group.rows]
  clear group
  generalize c.readsOf module = reads at inside
  induction reads with
  | nil => rfl
  | cons read reads ih =>
    have row : (Read.row _ c.flag read).map SnapshotPeer.index = _ :=
      row_some (inside read (by simp))
    have others := ih fun read found => inside read (by simp [found])
    rw [List.filterMap_cons, List.filter_cons]
    by_cases filtered : hidden c.flag read.reading.state.health = true
    · rw [if_pos filtered, Option.map_eq_none_iff] at row
      simp [row, Read.shown, filtered, others]
    · rw [if_neg filtered, Option.map_eq_some_iff] at row
      obtain ⟨shown, found, index⟩ := row
      simp [found, index, Read.shown, filtered, others]

/-- What a suspended or finished request reports of one group. -/
structure Reported (c : Collector) (module : Nat) : Prop where
  once : (c.readsOf module).map Read.index = List.range (c.snapshots module).next
  bound : (c.snapshots module).next ≤ c.size module
  total : (c.snapshots module).total = c.size module
  rows : (c.snapshots module).peers =
    (c.readsOf module).filterMap (Read.row (c.sources module) c.flag)
  sorted : ((c.snapshots module).peers.map SnapshotPeer.index).Pairwise (· < ·)
  up : (c.snapshots module).up = (c.readsOf module).countP Read.up
  up_le : (c.snapshots module).up ≤ (c.snapshots module).total

/-- Each group reports what was read of it. -/
theorem processed_reported {c : Collector} (processed : Processed c) (module : Nat) :
    Reported c module := by
  have group := processed.groups module
  have once := readsOf_places processed module
  have count := congrArg List.length once
  rw [List.length_map, List.length_range] at count
  refine ⟨once, group.bound, group.total, group.rows, ?_, group.up, ?_⟩
  · -- The indices of the rows are some of the indices that were read, in their order.
    have sublist : List.Sublist (((c.readsOf module).filter (Read.shown c.flag)).map Read.index)
        (List.range (c.snapshots module).next) := by
      rw [← once]
      exact List.filter_sublist.map _
    rw [rows_indices processed module]
    exact List.pairwise_lt_range.sublist sublist
  · have counted := List.countP_le_length (p := Read.up) (l := c.readsOf module)
    rw [group.up, group.total]
    exact Nat.le_trans counted (count ▸ group.bound)

section Budget

variable {script : Nat → Reading}

/-- Whatever becomes of a batch, each of its readings is paid for. -/
structure Paid (batch batch' : Batch) : Prop where
  reads : ∃ new, batch'.reads = batch.reads ++ new
  budget : batch'.reads.length + batch'.remaining = batch.reads.length + batch.remaining

/-- What did nothing was paid for. -/
theorem Paid.refl (batch : Batch) : Paid batch batch :=
  ⟨⟨[], by simp⟩, rfl⟩

/-- Two parts that were paid for make a whole that was. -/
theorem Paid.trans {a b c : Batch} (first : Paid a b) (second : Paid b c) : Paid a c := by
  -- The readings follow each other.
  obtain ⟨new, reads⟩ := first.reads
  obtain ⟨more, reads'⟩ := second.reads
  exact ⟨⟨new ++ more, by rw [reads', reads, List.append_assoc]⟩,
    second.budget.trans first.budget⟩

/-- Nothing in the environment holds a request up, and its peers are bound. -/
structure Calm (script : Nat → Reading) (count : Nat) (sources : Nat → Option Source) : Prop where
  locked : ∀ pos, (script pos).locked = true
  pushed : ∀ pos, (script pos).pushed = true
  bound : ∀ module < count, ∀ peer ∈ sourcePeers (sources module), peer.shm = true

/-- Without trouble no pass fails. -/
theorem stepLoop_calm (pushed : ∀ pos, (script pos).pushed = true) (module flag : Nat)
    (rest : List SourcePeer) (bound : ∀ peer ∈ rest, peer.shm = true) (batch : Batch) :
    (stepLoop script module flag rest batch).1 ≠ .error := by
  -- Induction on the peers that are left.
  induction rest generalizing batch with
  | nil => simp [stepLoop]
  | cons peer rest ih =>
    have pass := stepLoop_pass script module flag peer rest batch
    generalize stepLoop script module flag (peer :: rest) batch = result at pass ⊢
    cases pass with
    | busy spent => simp
    | unbound missing =>
      rw [bound peer (by simp)] at missing
      cases missing
    | full budget refused =>
      rw [pushed] at refused
      cases refused
    | again contended => simp
    | visit budget => exact ih (fun peer found => bound peer (by simp [found])) _

/-- Without trouble no batch fails. -/
theorem collectLoop_calm (left remaining : Nat) (c : Collector)
    (rest : c.module + left = c.count) (calm : Calm script c.count c.sources) :
    (collectLoop script left remaining c).1 ≠ .error := by
  -- Induction on the groups that are left.
  induction left generalizing remaining c with
  | zero => simp [collectLoop]
  | succ left ih =>
    unfold collectLoop
    dsimp only
    have step : (snapshotStep script c.module c.flag (c.sources c.module)
        (c.batch remaining)).1 ≠ .error :=
      stepLoop_calm calm.pushed _ _ _ (fun peer found =>
        calm.bound c.module (by omega) peer (List.mem_of_mem_drop found)) _
    split
    · exact step
    · exact ih _ { c.put _ with module := c.module + 1 }
        (by show c.module + 1 + left = c.count; omega) calm

/-- The number of peers in all groups. -/
def peersTotal (count : Nat) (sources : Nat → Option Source) : Nat :=
  ((List.range count).map fun module => (sourcePeers (sources module)).length).sum

/-- How many readings the groups before one make when they are done. -/
theorem placesBelow_length (next : Nat → Nat) (bound : Nat) :
    ((List.range bound).flatMap fun module => placesBelow module (next module)).length =
      ((List.range bound).map next).sum := by
  -- Each group has as many places as were read of it.
  simp [List.length_flatMap, placesBelow]

/-- A request that is not done has peers left. -/
theorem reads_length_busy {c : Collector} (processed : Processed c) (open_ : c.module < c.count)
    (left : (c.snapshots c.module).next < c.size c.module) :
    c.reads.length < peersTotal c.count c.sources := by
  -- The current group is not at its end.
  have count := congrArg List.length processed.ordered
  rw [List.length_map, placesBelow_length, List.range_succ, List.map_append, List.sum_append,
    List.map_singleton, List.sum_singleton] at count
  have before : ((List.range c.module).map fun module => (c.snapshots module).next).sum =
      peersTotal c.module c.sources := by
    rw [peersTotal]
    congr 1
    exact List.map_congr_left fun module below =>
      processed.earlier module (List.mem_range.mp below)
  have part : peersTotal c.module c.sources + c.size c.module ≤ peersTotal c.count c.sources := by
    have shorter : List.Sublist (List.range (c.module + 1)) (List.range c.count) :=
      List.range_sublist.mpr open_
    have sums := (shorter.map fun module => (sourcePeers (c.sources module)).length).sum_le_sum
      fun _ _ => Nat.zero_le _
    rwa [List.range_succ, List.map_append, List.sum_append, List.map_singleton,
      List.sum_singleton] at sums
  rw [before] at count
  omega

end Budget

/-- Without contention a request that is not done has used its batches up. -/
theorem afterBatches_calm {script : Nat → Reading} {count : Nat} {sources : Nat → Option Source}
    (calm : Calm script count sources) (flag n : Nat) :
    (afterBatches script (.init count sources flag) n).1 = .ok ∨
      (afterBatches script (.init count sources flag) n).1 = .busy ∧
        (afterBatches script (.init count sources flag) n).2.reads.length = statusBatch * n ∧
        (n = 0 ∨ statusBatch * n < peersTotal count sources) := by
  -- Induction on the batches.
  induction n with
  | zero => exact .inr ⟨rfl, rfl, .inl rfl⟩
  | succ n ih =>
    rcases ih with ok | ⟨busy, spent, -⟩
    · left
      simp [afterBatches, resume, ok]
    · obtain ⟨processed, same, sources', -, -⟩ := afterBatches_processed script count sources flag n
        (by rw [busy]; decide)
      unfold afterBatches resume
      generalize afterBatches script (.init count sources flag) n = state at *
      rw [if_pos (.inr busy)]
      have calm' : Calm script state.2.count state.2.sources := by
        rw [same, sources']
        exact calm
      have success : (collect script state.2).1 ≠ .error :=
        collectLoop_calm _ _ _ (by have := processed.module_le; omega) calm'
      have batched := collect_batched script state.2 processed success
      cases outcome : (collect script state.2).1 with
      | ok => exact .inl rfl
      | error => exact absurd outcome success
      | again =>
        obtain ⟨pos, contended⟩ := batched.again outcome
        rw [calm.locked] at contended
        cases contended
      | busy =>
        obtain ⟨new, reads, -, all⟩ := batched.reads
        have count : (collect script state.2).2.reads.length = statusBatch * (n + 1) := by
          rw [reads, List.length_append, spent, all outcome, Nat.mul_succ]
        obtain ⟨open_, left⟩ := batched.busy outcome
        have below := reads_length_busy batched.processed (by rw [batched.count]; exact open_) left
        rw [count, batched.count, batched.sources, same, sources'] at below
        exact .inr ⟨rfl, count, .inr below⟩

end Healthcheck
