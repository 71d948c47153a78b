import Healthcheck.Reload.Cycle
import Healthcheck.System.Thresholds

/-!
What the reloads of an instance do to the health of a peer: a record goes on where a record of the
generation before was when it was read, so the outcomes of all generations count as if one process
had submitted them all.
-/

namespace Healthcheck

open BucketIndex Program

/-- A stretch of the history a record goes on from: how the peer was checked in a generation, and
the outcomes committed there, newest first. -/
structure Stretch where
  conf : CheckConf
  commits : List Outcome

/-- The health after some stretches, newest first: what their outcomes, one after the other, make
of the health before the first of them. -/
def carriedHealth (word : Word) (root : Health) : List Stretch → Health
  | [] => root
  | stretch :: older =>
    stretch.commits.foldr (fun outcome health =>
      submitHealth word stretch.conf health outcome.result outcome.sample)
      (carriedHealth word root older)

/-- New peer `i` goes on from the old record at a position, as that stood in a state of the old
processes. -/
structure Era.Continues (new old : Era) (i position : Nat) (s : Sys) : Prop where
  given : ∃ index, identityIndexCreate new.conf.word new.conf.order new.env.works (some old.table) =
      some index ∧
    (identityIndexTakes new.conf.word new.conf.order old.table.peers index new.conf.peers)[i]? =
      some (some position)
  locked : new.env.locked i = true
  reached : old.Reaches s
  read : new.env.memory i = s.shared.peers

/-- What a record of the newest generation descends from: the positions of its ancestors, the health
the oldest of them began with, and what was committed to them before they were read. -/
inductive Descends : List Era → Nat → List Nat → Health → List Stretch → Prop
  /-- Nothing to go on from, or nothing that could be read in time. -/
  | origin {era : Era} {earlier : List Era} {i : Nat}
      (alone : ∀ old ∈ earlier.head?, ∀ position s, ¬ era.Continues old i position s) :
      Descends (era :: earlier) i [] { down := (era.gen.conf i).defaultDown } []
  | inherited {new old : Era} {earlier : List Era} {i position : Nat} {path : List Nat}
      {root : Health} {past : List Stretch} {s : Sys} (continues : new.Continues old i position s)
      (older : Descends (old :: earlier) position path root past) :
      Descends (new :: old :: earlier) i (position :: path) root
        ({ conf := old.gen.conf position, commits := s.commits position } :: past)

variable {word : Word} {module : Module} {tag : Nat}

/-- The delays of a record that never had a sample. -/
def noDelays : DelayStats :=
  { last := 0, avg := 0, min := 0, max := 0, delayTotal := 0, delaySampleCount := 0 }

/-- A record without delays has nothing to clear. -/
theorem clearDelays_undelayed (conf : CheckConf) {health : Health}
    (undelayed : health.delays = noDelays) : clearDelays conf health = health := by
  -- Every delay field is zero already.
  obtain ⟨accessTime, riseCount, fallCount, down, last, avg, min, max, total, count⟩ := health
  simp only [Health.delays, noDelays, DelayStats.mk.injEq] at undelayed
  obtain ⟨rfl, rfl, rfl, rfl, rfl, rfl⟩ := undelayed
  unfold clearDelays
  split <;> rfl

/-- A TCP peer has nothing cleared. -/
theorem clearDelays_tcp {conf : CheckConf} (tcp : conf.checkType = .tcp) (health : Health) :
    clearDelays conf health = health :=
  -- Only a UDP check clears them.
  if_neg (by simp [tcp])

/-- The code of a check type tells the type. -/
theorem code_injective {a b : CheckType} (same : a.code = b.code) : a = b := by
  -- The two checks have two codes.
  cases a <;> cases b <;> first | rfl | exact absurd same (by decide)

/-- An old record that can be read is read as it stands. -/
theorem readPeer_some {env : ZoneEnv} {i position : Nat} {s : Sys} (locked : env.locked i = true)
    (read : env.memory i = s.shared.peers) :
    env.readPeer i position = some (s.record position) := by
  -- The lock was taken, and the memory is that of the record.
  rw [ZoneEnv.readPeer, if_pos locked, read]
  rfl

/-- What a new peer finds in the index, read in the state it was read in. -/
theorem Era.Loaded.inherits {new old : Era} {earlier : List Era}
    (before : Reloads word module tag (old :: earlier))
    (loaded : new.Loaded word module tag (some old.zones)) {i : Nat} {peer : ConfPeer}
    (listed : new.conf.peers[i]? = some peer) :
    (∀ position s, new.Continues old i position s →
      new.first.record i = inheritState peer.conf new.conf.workers i (some (s.record position))) ∧
    ((∀ position s, ¬ new.Continues old i position s) →
      (∀ i, ∃ s, old.Reaches s ∧ new.env.memory i = s.shared.peers) →
      new.first.record i = inheritState peer.conf new.conf.workers i none) := by
  obtain ⟨_, earlierLoaded⟩ := before.loaded
  obtain ⟨index, previous, created, taken, record⟩ := loaded.record listed
  rw [earlierLoaded.found] at created taken
  constructor
  · intro position s continues
    obtain ⟨⟨index', created', given⟩, locked, _, read⟩ := continues
    -- There is one index, and one answer for this peer.
    have same : index' = index := Option.some.inj (created'.symm.trans created)
    subst same
    have found : previous = some position := Option.some.inj (taken.symm.trans given)
    rw [record, found, Option.bind_some, readPeer_some locked read]
  · intro alone live
    rw [record]
    cases previous with
    | none => rfl
    | some position =>
      -- A matched peer goes on from its record unless it could not be locked.
      cases locked : new.env.locked i with
      | false => rw [Option.bind_some, ZoneEnv.readPeer, if_neg (by simp [locked])]
      | true =>
        obtain ⟨s, reached, read⟩ := live i
        exact absurd ⟨⟨index, created, taken⟩, locked, reached, read⟩ (alone position s)

/-- The first generation has nothing to go on from. -/
theorem Era.Loaded.inherits_nothing {era : Era} {oldCycle : Option (List ShmZone)}
    (loaded : era.Loaded word module tag oldCycle)
    (absent : findLatestPeersShm oldCycle tag = none) {i : Nat} {peer : ConfPeer}
    (listed : era.conf.peers[i]? = some peer) :
    era.first.record i = inheritState peer.conf era.conf.workers i none := by
  obtain ⟨index, previous, created, taken, record⟩ := loaded.record listed
  rw [absent] at created taken
  obtain ⟨bucketCount, empty⟩ :=
    identityIndexCreate_empty (fun table found => by cases found) created
  -- An index without entries has no answer for anybody.
  have nothing : previous = none := by
    rw [empty, identityIndexTakes, takes_empty, List.getElem?_map, listed] at taken
    exact (Option.some.inj taken).symm
  rw [record, nothing]
  rfl

/-- A peer that is given an old record is one the old generation had, with the peer's identity. -/
theorem Era.Continues.ancestor {new old : Era} {earlier : List Era}
    (before : Reloads word module tag (old :: earlier)) {i position : Nat} {s : Sys}
    (continues : new.Continues old i position s) {peer : ConfPeer}
    (listed : new.conf.peers[i]? = some peer) :
    old.table.peers position = peer.identity ∧
      ∃ ancestor, old.conf.peers[position]? = some ancestor := by
  -- The index gives a position of the old table that has the identity asked for.
  obtain ⟨_, loaded⟩ := before.loaded
  obtain ⟨valid, _, number⟩ := initZone_numbered loaded.initialized
  obtain ⟨index, created, given⟩ := continues.given
  obtain ⟨entry, wanted⟩ :=
    (identityIndexTakes_maximal valid created new.conf.peers).known i position given
  rw [List.getElem?_map, listed, Option.map_some, Option.some.injEq] at wanted
  have inside : position < old.conf.peers.length := by
    rw [← number]
    exact Finset.mem_range.mp entry
  exact ⟨wanted.symm, _, List.getElem?_eq_getElem inside⟩

/-- Two new peers never go on from one old record. -/
theorem Era.Continues.unique {new old : Era} {earlier : List Era}
    (before : Reloads word module tag (old :: earlier)) {i j position : Nat} {s s' : Sys}
    (first : new.Continues old i position s) (second : new.Continues old j position s') :
    i = j := by
  -- No position is given to two requests.
  obtain ⟨_, loaded⟩ := before.loaded
  obtain ⟨index, created, given⟩ := first.given
  obtain ⟨index', created', given'⟩ := second.given
  have same : index' = index := Option.some.inj (created'.symm.trans created)
  rw [same] at given'
  exact (identityIndexTakes_maximal (initZone_numbered loaded.initialized).1 created
    new.conf.peers).once i j position given given'

/-- Every record of the newest generation descends from somewhere. -/
theorem descends_exists {eras : List Era} (reloads : Reloads word module tag eras) (i : Nat) :
    ∃ path root past, Descends eras i path root past := by
  -- Induction on the reloads, for every peer of the generation before.
  induction reloads generalizing i with
  | start absent loaded =>
    exact ⟨_, _, _, .origin fun old member => by cases member⟩
  | reload before loaded live ih =>
    rename_i new old earlier
    by_cases continued : ∃ position s, new.Continues old i position s
    · obtain ⟨position, s, continues⟩ := continued
      obtain ⟨path, root, past, older⟩ := ih position
      exact ⟨_, _, _, .inherited continues older⟩
    · refine ⟨_, _, _, .origin fun _ member position s continues => ?_⟩
      cases member
      exact continued ⟨position, s, continues⟩

/-- The health of a generation's record is what its first state had, and the outcomes since. -/
theorem Era.Loaded.submitted {era : Era} {oldCycle : Option (List ShmZone)}
    (loaded : era.Loaded word module tag oldCycle) {s : Sys} (reached : era.Reaches s) (i : Nat) :
    (s.record i).health.untimed = (s.commits i).foldr (fun outcome health =>
      submitHealth word (era.gen.conf i) health outcome.result outcome.sample)
        (era.first.record i).health.untimed := by
  -- Every commit of the generation is one update of the health.
  have committed := (committed_reachable loaded.start reached i).health
  rw [committed, foldHealth, loaded.word]

/-- The record of a UDP peer starts without delays, whatever it goes on from. -/
theorem Era.Loaded.undelayed {era : Era} {oldCycle : Option (List ShmZone)}
    (loaded : era.Loaded word module tag oldCycle) {i : Nat} {peer : ConfPeer}
    (listed : era.conf.peers[i]? = some peer) (udp : peer.conf.checkType = .udp) :
    (era.first.record i).health.delays = noDelays := by
  obtain ⟨_, previous, _, _, record⟩ := loaded.record listed
  rw [record]
  -- The state is built from what was read, with its delays cleared.
  simp [inheritState, clearDelays, udp, Health.delays, noDelays]

/-- A UDP peer never gets any delays: only TCP checks give samples. -/
theorem Era.Loaded.undelayed_reached {era : Era} {oldCycle : Option (List ShmZone)}
    (loaded : era.Loaded word module tag oldCycle) {i : Nat} {peer : ConfPeer}
    (listed : era.conf.peers[i]? = some peer) (udp : peer.conf.checkType = .udp) {s : Sys}
    (reached : era.Reaches s) : (s.record i).health.delays = noDelays := by
  have conf : (era.gen.conf i).checkType = .udp := by rw [loaded.confs i peer listed, udp]
  have sampled := (sampled_reachable loaded.start reached i).commits
  have none : (s.commits i).filterMap Outcome.delay = [] := by
    refine List.filterMap_eq_nil_iff.mpr fun outcome member => ?_
    -- A sample would make it a TCP check.
    cases sample : outcome.sample with
    | none => simp [Outcome.delay, sample]
    | some delay =>
      have tcp := sampled outcome member (by rw [sample]; rfl)
      rw [conf] at tcp
      cases tcp
  have health := (committed_reachable loaded.start reached i).health
  have delays : (s.record i).health.untimed.delays = (s.record i).health.delays := rfl
  rw [← delays, health, delays_foldHealth, none]
  exact loaded.undelayed listed udp

/-- A record that goes on from an old one starts with the health of that one, all of it. -/
theorem Era.Continues.whole {new old : Era} {earlier : List Era}
    (before : Reloads word module tag (old :: earlier))
    (loaded : new.Loaded word module tag (some old.zones)) {i position : Nat} {s : Sys}
    (continues : new.Continues old i position s) {peer : ConfPeer}
    (listed : new.conf.peers[i]? = some peer) :
    (new.first.record i).health = (s.record position).health := by
  obtain ⟨same, ancestor, known⟩ := continues.ancestor before listed
  obtain ⟨_, earlierLoaded⟩ := before.loaded
  -- The ancestor is checked by the same protocol, which is part of the identity.
  have identity : ancestor.identity = peer.identity :=
    (earlierLoaded.identity known).symm.trans same
  have type : ancestor.conf.checkType = peer.conf.checkType :=
    code_injective (congrArg Identity.checkType identity)
  rw [(loaded.inherits before listed).1 _ _ continues]
  show clearDelays peer.conf (s.record position).health = _
  cases protocol : peer.conf.checkType with
  | tcp => exact clearDelays_tcp protocol _
  | udp =>
    exact clearDelays_undelayed peer.conf
      (earlierLoaded.undelayed_reached known (type.trans protocol) continues.reached)

/-- The health of a record is what its ancestors' outcomes and its own make of the health the oldest
of them began with. -/
theorem descends_health {eras : List Era} {i : Nat} {path : List Nat} {root : Health}
    {past : List Stretch} (descends : Descends eras i path root past)
    (reloads : Reloads word module tag eras) {era : Era} {earlier : List Era}
    (newest : eras = era :: earlier) {peer : ConfPeer} (listed : era.conf.peers[i]? = some peer)
    {s : Sys} (reached : era.Reaches s) :
    (s.record i).health.untimed =
      carriedHealth word root ({ conf := era.gen.conf i, commits := s.commits i } :: past) := by
  -- Induction on the ancestry; the ancestor's health is taken in the state it was read in.
  induction descends generalizing era earlier peer s with
  | @origin latest rest i alone =>
    cases newest
    obtain ⟨_, loaded⟩ := reloads.loaded
    have first : (latest.first.record i).health = { down := (latest.gen.conf i).defaultDown } := by
      rw [loaded.confs i peer listed]
      refine Eq.trans ?_ (inheritState_none peer.conf latest.conf.workers i).1
      cases reloads with
      | start absent begun => rw [begun.inherits_nothing absent listed]
      | reload before begun live =>
        rw [(begun.inherits before listed).2 (alone _ rfl) live]
    rw [loaded.submitted reached, first]
    rfl
  | @inherited new old rest i position _ _ _ _ continues older ih =>
    cases newest
    cases reloads with
    | reload before loaded live =>
      obtain ⟨_, ancestor, known⟩ := continues.ancestor before listed
      rw [loaded.submitted reached, continues.whole before loaded listed,
        ih before rfl known continues.reached]
      rfl

/-- A peer that is always checked alike has the health of one uninterrupted series. -/
theorem carriedHealth_series (gen : Generation) (i : Nat) (root : Health)
    {stretches : List Stretch} (alike : ∀ stretch ∈ stretches, stretch.conf = gen.conf i) :
    carriedHealth gen.word root stretches =
      foldHealth gen i root (stretches.flatMap Stretch.commits) := by
  -- Induction on the stretches, whose folds follow one another.
  induction stretches with
  | nil => rfl
  | cons stretch older ih =>
    rw [carriedHealth, alike stretch List.mem_cons_self,
      ih fun other member => alike other (List.mem_cons_of_mem _ member), List.flatMap_cons,
      foldHealth, foldHealth, List.foldr_append]

/-- All ancestors of a record have its identity. -/
theorem descends_identity {eras : List Era} {i : Nat} {path : List Nat} {root : Health}
    {past : List Stretch} (descends : Descends eras i path root past)
    (reloads : Reloads word module tag eras) {era : Era} {earlier : List Era}
    (newest : eras = era :: earlier) {peer : ConfPeer} (listed : era.conf.peers[i]? = some peer) :
    ∀ (k position : Nat) old, path[k]? = some position → earlier[k]? = some old →
      old.table.peers position = peer.identity := by
  induction descends generalizing era earlier peer with
  | origin alone =>
    intro k position old here
    simp at here
  | @inherited new old rest i first _ _ _ _ continues older ih =>
    cases newest
    cases reloads with
    | reload before loaded live =>
      obtain ⟨same, ancestor, known⟩ := continues.ancestor before listed
      -- The ancestor's own identity is that of the record in the table.
      obtain ⟨_, earlierLoaded⟩ := before.loaded
      have handed : ancestor.identity = peer.identity :=
        (earlierLoaded.identity known).symm.trans same
      intro k position elder here there
      cases k with
      | zero =>
        cases here
        cases there
        exact same
      | succ k =>
        rw [← handed]
        exact ih before rfl known k position elder here there

/-- No two records of a generation have an ancestor in common. -/
theorem descends_apart {eras : List Era} {i j : Nat} {path path' : List Nat} {root root' : Health}
    {past past' : List Stretch} (reloads : Reloads word module tag eras) (differ : i ≠ j)
    (first : Descends eras i path root past) (second : Descends eras j path' root' past') :
    ∀ (k position : Nat), path[k]? = some position → path'[k]? ≠ some position := by
  induction first generalizing j path' root' past' with
  | origin alone =>
    intro k position here
    simp at here
  | inherited continues older ih =>
    cases reloads with
    | reload before loaded live =>
      cases second with
      | origin alone =>
        intro k position _ there
        simp at there
      | inherited continues' older' =>
        -- Different peers are given different records, whose ancestors differ in turn.
        intro k position here there
        cases k with
        | zero =>
          cases here
          cases there
          exact differ (continues.unique before continues')
        | succ k =>
          refine ih before (fun same => ?_) older' k position here there
          subst same
          exact differ (continues.unique before continues')

/-- Reloads neither lose nor repeat outcomes. Every record descends from somewhere, and wherever it
does, its health is what the outcomes of its ancestors and its own, in order, make of the health the
oldest ancestor began with. All ancestors have the record's identity, and no two records have one in
common. A peer that is always checked alike has the health of a single uninterrupted series. -/
theorem health_continuous {era : Era} {earlier : List Era}
    (reloads : Reloads word module tag (era :: earlier)) {i : Nat} {peer : ConfPeer}
    (listed : era.conf.peers[i]? = some peer) :
    (∃ path root past, Descends (era :: earlier) i path root past) ∧
    ∀ path root past, Descends (era :: earlier) i path root past →
      (∀ (k position : Nat) old, path[k]? = some position → earlier[k]? = some old →
        old.table.peers position = peer.identity) ∧
      (∀ j path' root' past', i ≠ j → Descends (era :: earlier) j path' root' past' →
        ∀ k position : Nat, path[k]? = some position → path'[k]? ≠ some position) ∧
      ∀ s, era.Reaches s →
        (s.record i).health.untimed =
          carriedHealth word root ({ conf := peer.conf, commits := s.commits i } :: past) ∧
        ((∀ stretch ∈ past, stretch.conf = peer.conf) →
          (s.record i).health.untimed =
            foldHealth era.gen i root (s.commits i ++ past.flatMap Stretch.commits)) := by
  obtain ⟨_, loaded⟩ := reloads.loaded
  have conf := loaded.confs i peer listed
  refine ⟨descends_exists reloads i, fun path root past descends =>
    ⟨descends_identity descends reloads rfl listed,
      fun j _ _ _ differ other => descends_apart reloads differ descends other,
      fun s reached => ?_⟩⟩
  have health := descends_health descends reloads rfl listed reached
  rw [conf] at health
  refine ⟨health, fun alike => ?_⟩
  -- The newest stretch is checked like the older ones.
  have series := carriedHealth_series era.gen i root
    (fun stretch (member : stretch ∈ { conf := peer.conf, commits := s.commits i } :: past) => by
      rw [conf]
      rcases List.mem_cons.mp member with rfl | older
      · rfl
      · exact alike stretch older)
  rw [health, ← loaded.word, series, List.flatMap_cons]

/-- A success and then a failure, by one worker. -/
def brokenDown : List Command :=
  workerRun 0 0 100 10 [(10, .claimRound 0 none 0), (20, .restartDeadline 0),
    (20, .probeWaiting 0), (40, .freeze 0 true "tcp peek success" "recv" none),
    (40, .settle 0 0), (4010, .claimRound 0 none 0), (4020, .restartDeadline 0),
    (4020, .probeWaiting 0), (4040, .freeze 0 false "tcp closed or error" "recv" none),
    (4040, .settle 0 0)]

/-- A failure of the next generation. -/
def stillDown : List Command :=
  workerRun 0 0 200 8000 [(8000, .claimRound 0 none 0), (8020, .restartDeadline 0),
    (8020, .probeWaiting 0), (8040, .freeze 0 false "tcp closed or error" "recv" none),
    (8040, .settle 0 0)]

/-- The first generation with what its processes did, and the second over it. -/
def brokenZone : Option ((PeersShm × Shared) × Sys × (PeersShm × Shared) × Sys) :=
  (initZone (soloZone 1) sampleEnv none).bind fun first =>
    (runAll { sample with generation := 1 } brokenDown { shared := first.2 }).bind fun s =>
      (initZone (soloZone 2) { sampleEnv with memory := fun _ => s.shared.peers }
        (some [{ tag := 0, data := some (some first.1) }])).bind fun second =>
          (runAll { sample with generation := 2 } stillDown { shared := second.2 }).map
            fun s' => (first, s, second, s')

/-- A failure on either side of a reload: the second generation commits one failure, which follows
the success and the failure of the first one, and takes the peer down with the second in a row. -/
theorem health_continuous_down : ∃ (era : Era) (s : Sys) (past : List Stretch),
    era.Reaches s ∧ (s.commits 0).map Outcome.result = [false] ∧
    past.map (fun stretch => stretch.commits.map Outcome.result) = [[false, true]] ∧
    (s.record 0).health.untimed = carriedHealth .bits64 { down := sampleConf.defaultDown }
      ({ conf := sampleConf, commits := s.commits 0 } :: past) ∧
    (s.record 0).health.down = 1 ∧ (s.record 0).health.fallCount = 2 := by
  have present : brokenZone.isSome := by decide +kernel
  obtain ⟨⟨⟨table, shared⟩, s, ⟨table', shared'⟩, s'⟩, both⟩ := Option.isSome_iff_exists.mp present
  have commits : (brokenZone.map fun zones => ((zones.2.1.commits 0).map Outcome.result,
      (zones.2.2.2.commits 0).map Outcome.result)) = some ([false, true], [false]) := by
    decide +kernel
  have health : (brokenZone.map fun zones => ((zones.2.2.2.record 0).health.down,
      (zones.2.2.2.record 0).health.fallCount)) = some (1, 2) := by
    decide +kernel
  have matched : (brokenZone.bind fun zones =>
      (identityIndexCreate .bits64 .little sampleEnv.works (some zones.1.1)).map fun index =>
        identityIndexTakes .bits64 .little zones.1.1.peers index (soloZone 2).peers) =
      some [some 0] := by
    decide +kernel
  rw [both] at commits health matched
  obtain ⟨earlier, later⟩ := Prod.mk.inj (Option.some.inj commits)
  obtain ⟨down, falls⟩ := Prod.mk.inj (Option.some.inj health)
  obtain ⟨index, created, given⟩ := Option.map_eq_some_iff.mp matched
  simp only [brokenZone, Option.bind_eq_some_iff, Option.map_eq_some_iff] at both
  obtain ⟨_, begun, _, ran, _, second, _, ran', same⟩ := both
  cases same
  have start : Reloads .bits64 .http 0 [soloEra 1 sampleEnv table shared] :=
    .start rfl (soloEra_loaded rfl begun)
  -- The second generation reads what the first one has come to, and goes on from there.
  have reloads := solo_reload start (by decide) second fun i => ⟨s, runAll_steps ran, rfl⟩
  have position : (identityIndexTakes .bits64 .little table.peers index
      (soloZone 2).peers)[0]? = some (some 0) := by rw [given]; rfl
  have first : Descends [soloEra 1 sampleEnv table shared] 0 []
      { down := sampleConf.defaultDown } [] :=
    .origin fun _ member => absurd member (Option.not_mem_none _)
  let era := soloEra 2 { sampleEnv with memory := fun _ => s.shared.peers } table' shared'
  have continues : era.Continues (soloEra 1 sampleEnv table shared) 0 0 s :=
    ⟨⟨index, created, position⟩, rfl, runAll_steps ran, rfl⟩
  have reached : era.Reaches s' := runAll_steps ran'
  obtain ⟨_, laws⟩ :=
    health_continuous reloads (rfl : (soloZone 2).peers[0]? = some (samplePeer [97] [7]))
  obtain ⟨_, _, health⟩ := laws _ _ _ (.inherited continues first)
  refine ⟨era, s', _, reached, later, ?_, (health s' reached).1, down, falls⟩
  simpa using earlier

end Healthcheck
