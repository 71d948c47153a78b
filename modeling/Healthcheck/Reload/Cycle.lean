import Healthcheck.Library.Ascii
import Healthcheck.Reload.Zone

/-!
The generations of a module over the reloads of an nginx instance: how each one is numbered and its
shared memory named, and what it is set up from.
-/

namespace Healthcheck

open Ascii

/-- What `ngx_healthcheck_configure_zone` sets up; the zone is never reused. -/
structure ZoneRequest where
  module : Module
  generation : Nat
  /-- `check_shm_name`. -/
  name : List UInt8
  size : Nat
  deriving DecidableEq, Repr

/-- Why `ngx_healthcheck_configure_zone` returns `NGX_CONF_ERROR`. -/
inductive ZoneError where
  /-- Logged as `healthcheck generation exhausted`. -/
  | exhausted
  | nomem
  /-- The core does not accept the zone. -/
  | refused
  deriving DecidableEq, Repr

/-- How a module stands in the names of its zones. -/
def Module.kind : Module → List UInt8
  | .http => bytes "http"
  | .stream => bytes "stream"

/-- The room for the name of a zone. -/
def zoneNameRoom : Nat := 96

/-- The zone name of a module's generation; `ngx_snprintf` writes no more than there is room for. -/
def zoneName (module : Module) (generation : Nat) : List UInt8 :=
  (bytes "ngx_" ++ module.kind ++ bytes "_upstream_check#" ++ numeral generation).take zoneNameRoom

/-- `ngx_healthcheck_configure_zone`, given whether there is memory for the name and whether the core
adds the zone to the cycle. -/
def configureZone (word : Word) (module : Module) (checkShmSize tag : Nat) (named added : Bool)
    (oldCycle : Option (List ShmZone)) : Except ZoneError ZoneRequest :=
  let old := findLatestPeersShm oldCycle tag
  -- The last number a word has is not followed by another one.
  if old.any (·.generation = word.max) then .error .exhausted
  else
    let generation := (old.map (·.generation + 1)).getD 1
    if ¬ named then .error .nomem
    else if ¬ added then .error .refused
    else .ok { module := module, generation := generation, name := zoneName module generation
               size := max checkShmSize (1024 * 1024) }

/-- A generation of a module: the zones of its cycle, what its own zone was set up from, and the
shared memory its processes start with. -/
structure Era where
  zones : List ShmZone
  request : ZoneRequest
  conf : ZoneConf
  env : ZoneEnv
  gen : Generation
  table : PeersShm
  shared : Shared

/-- The system before the first process of a generation. -/
def Era.first (era : Era) : Sys :=
  { shared := era.shared }

/-- The processes of a generation can come to a state. -/
def Era.Reaches (era : Era) (s : Sys) : Prop :=
  Steps era.gen era.first s

/-- nginx went over to the cycle of a generation from an old one. -/
structure Era.Loaded (era : Era) (word : Word) (module : Module) (tag : Nat)
    (oldCycle : Option (List ShmZone)) : Prop where
  configured : ∃ checkShmSize named added,
    configureZone word module checkShmSize tag named added oldCycle = .ok era.request
  initialized : initZone era.conf era.env oldCycle = some (era.table, era.shared)
  /-- Of the cycle's zones one has the module's tag. -/
  published : era.zones.filter (·.tag = tag) = [{ tag := tag, data := some (some era.table) }]
  tagged : era.conf.tag = tag
  platform : era.conf.word = word
  numbered : era.conf.generation = era.request.generation
  /-- The processes run on what was configured. -/
  word : era.gen.word = word
  workers : era.gen.workers = era.conf.workers
  nelts : era.gen.nelts = era.conf.peers.length
  confs : ∀ (i : Nat) peer, era.conf.peers[i]? = some peer → era.gen.conf i = peer.conf

/-- The generations of a module since its first, newest first. Each one was loaded over the cycle of
the one before while the processes of that went on, so every new peer reads the old records in some
state they had come to. -/
inductive Reloads (word : Word) (module : Module) (tag : Nat) : List Era → Prop
  | start {era : Era} {oldCycle : Option (List ShmZone)}
      (absent : findLatestPeersShm oldCycle tag = none)
      (loaded : era.Loaded word module tag oldCycle) : Reloads word module tag [era]
  | reload {new old : Era} {earlier : List Era} (before : Reloads word module tag (old :: earlier))
      (loaded : new.Loaded word module tag (some old.zones))
      (live : ∀ i, ∃ s, old.Reaches s ∧ new.env.memory i = s.shared.peers) :
      Reloads word module tag (new :: old :: earlier)

variable {word : Word} {module : Module} {tag : Nat}

/-- The name fits, so nothing of it is cut off. -/
theorem zoneName_whole (module : Module) {generation : Nat} (fits : generation ≤ word.max) :
    zoneName module generation =
      bytes "ngx_" ++ module.kind ++ bytes "_upstream_check#" ++ numeral generation := by
  -- A word has at most twenty digits.
  have digits : (numeral generation).length ≤ 20 := by
    apply numeral_length (by decide)
    cases word <;> simp only [Word.max, Word.size] at fits <;> omega
  have kind : module.kind.length ≤ 6 := by
    cases module <;> decide
  have front : (bytes "ngx_").length = 4 := by decide
  have middle : (bytes "_upstream_check#").length = 16 := by decide
  apply List.take_of_length_le
  simp only [List.length_append, front, middle, zoneNameRoom]
  omega

/-- The name tells the module and the generation. -/
theorem zoneName_injective {other : Module} {a b : Nat} (fitsA : a ≤ word.max)
    (fitsB : b ≤ word.max) (same : zoneName module a = zoneName other b) :
    module = other ∧ a = b := by
  rw [zoneName_whole module fitsA, zoneName_whole other fitsB] at same
  simp only [List.append_assoc] at same
  have rest := List.append_cancel_left same
  have http : bytes "http" = [104, 116, 116, 112] := by decide
  have stream : bytes "stream" = [115, 116, 114, 101, 97, 109] := by decide
  -- The first letter tells the modules apart.
  have modules : module = other := by
    cases module <;> cases other <;> simp [Module.kind, http, stream] at rest ⊢
  subst modules
  exact ⟨rfl, numeral_injective (List.append_cancel_left (List.append_cancel_left rest))⟩

/-- Only the zone with the tag decides which table is found. -/
theorem findLatestPeersShm_single {zones : List ShmZone} {table : PeersShm} (valid : table.Valid)
    (single : zones.filter (·.tag = tag) = [{ tag := tag, data := some (some table) }]) :
    findLatestPeersShm (some zones) tag = some table := by
  -- A zone of another tag leaves the candidate alone.
  have passed : ∀ (zones : List ShmZone) latest,
      zones.foldl (findLatestPeersShm.visit tag) latest =
        (zones.filter (·.tag = tag)).foldl (findLatestPeersShm.visit tag) latest := by
    intro zones
    induction zones with
    | nil => exact fun latest => rfl
    | cons zone rest ih =>
      intro latest
      by_cases own : zone.tag = tag
      · rw [List.filter_cons_of_pos (by simpa using own)]
        exact ih _
      · rw [List.filter_cons_of_neg (by simpa using own), List.foldl_cons, ih]
        simp [findLatestPeersShm.visit, own]
  show zones.foldl (findLatestPeersShm.visit tag) none = some table
  rw [passed, single]
  simp [findLatestPeersShm.visit, valid.1, valid.2]

/-- What a zone was configured with. -/
theorem configureZone_ok {checkShmSize : Nat} {named added : Bool}
    {oldCycle : Option (List ShmZone)} {request : ZoneRequest}
    (configured : configureZone word module checkShmSize tag named added oldCycle = .ok request) :
    (∀ old, findLatestPeersShm oldCycle tag = some old →
      old.generation ≠ word.max ∧ request.generation = old.generation + 1) ∧
    (findLatestPeersShm oldCycle tag = none → request.generation = 1) ∧
    request.name = zoneName module request.generation ∧ 1024 * 1024 ≤ request.size := by
  simp only [configureZone] at configured
  -- Past the three checks the request is built.
  split at configured
  · cases configured
  · rename_i more
    cases named with
    | false => cases configured
    | true =>
      cases added with
      | false => cases configured
      | true =>
        cases configured
        refine ⟨fun old found => ?_, fun absent => ?_, rfl, le_max_right _ _⟩
        · rw [found] at more ⊢
          exact ⟨by simpa using more, rfl⟩
        · rw [absent]
          rfl

/-- A zone's initialization writes the number of its generation into the table. -/
theorem initZone_numbered {conf : ZoneConf} {env : ZoneEnv} {oldCycle : Option (List ShmZone)}
    {table : PeersShm} {shared : Shared}
    (done : initZone conf env oldCycle = some (table, shared)) :
    table.Valid ∧ table.generation = conf.generation ∧ table.number = conf.peers.length := by
  -- The table is built with its generation and one record for each peer.
  obtain ⟨index, records, _, _, result⟩ := initZone_spec done
  cases result
  exact ⟨⟨rfl, rfl⟩, rfl, rfl⟩

/-- The next cycle finds the table of a generation that was loaded. -/
theorem Era.Loaded.found {era : Era} {oldCycle : Option (List ShmZone)}
    (loaded : era.Loaded word module tag oldCycle) :
    findLatestPeersShm (some era.zones) tag = some era.table := by
  -- The table is the only one of its cycle.
  exact findLatestPeersShm_single (initZone_numbered loaded.initialized).1 loaded.published

/-- The table of a generation has the number the zone was configured with. -/
theorem Era.Loaded.number {era : Era} {oldCycle : Option (List ShmZone)}
    (loaded : era.Loaded word module tag oldCycle) :
    era.table.generation = era.request.generation := by
  -- The zone takes its number from the configuration of its cycle.
  rw [(initZone_numbered loaded.initialized).2.1, loaded.numbered]

/-- The record a generation starts a peer with. -/
theorem Era.Loaded.record {era : Era} {oldCycle : Option (List ShmZone)}
    (loaded : era.Loaded word module tag oldCycle) {i : Nat} {peer : ConfPeer}
    (listed : era.conf.peers[i]? = some peer) :
    ∃ index previous, identityIndexCreate era.conf.word era.conf.order era.env.works
        (findLatestPeersShm oldCycle tag) = some index ∧
      (identityIndexTakes era.conf.word era.conf.order
        (((findLatestPeersShm oldCycle tag).map PeersShm.peers).getD fun _ => {}) index
        era.conf.peers)[i]? = some previous ∧
      era.first.record i =
        inheritState peer.conf era.conf.workers i (previous.bind (era.env.readPeer i)) := by
  obtain ⟨index, previous, created, taken, _, memory⟩ := initZone_record loaded.initialized listed
  rw [loaded.tagged] at created taken
  refine ⟨index, previous, created, taken, ?_⟩
  -- What a process reads first is the state that was published.
  show (era.shared.peers i).current = _
  rw [memory, current_publish]

/-- The table of a generation has the identities of its peers. -/
theorem Era.Loaded.identity {era : Era} {oldCycle : Option (List ShmZone)}
    (loaded : era.Loaded word module tag oldCycle) {i : Nat} {peer : ConfPeer}
    (listed : era.conf.peers[i]? = some peer) : era.table.peers i = peer.identity := by
  -- The table lists the configured peers in their order.
  obtain ⟨_, _, _, _, identity, _⟩ := initZone_record loaded.initialized listed
  exact identity

/-- The processes of a generation start over fresh records. -/
theorem Era.Loaded.start {era : Era} {oldCycle : Option (List ShmZone)}
    (loaded : era.Loaded word module tag oldCycle) : Initial era.gen era.first :=
  -- A zone that was initialized is a first state of the protocol.
  initZone_initial loaded.initialized era.gen loaded.workers

/-- The newest generation of a chain was loaded. -/
theorem Reloads.loaded {era : Era} {earlier : List Era}
    (reloads : Reloads word module tag (era :: earlier)) :
    ∃ oldCycle, era.Loaded word module tag oldCycle := by
  -- It is the first one, or it was reloaded.
  cases reloads with
  | start absent loaded => exact ⟨_, loaded⟩
  | reload before loaded live => exact ⟨_, loaded⟩

/-- The newest generation's number is how many there have been. -/
theorem reloads_count {era : Era} {earlier : List Era}
    (reloads : Reloads word module tag (era :: earlier)) :
    era.request.generation = earlier.length + 1 ∧ earlier.length + 1 ≤ word.max := by
  -- Induction on the reloads: each one finds the table of the one before, and adds one.
  generalize same : era :: earlier = eras at reloads
  induction reloads generalizing era earlier with
  | start absent loaded =>
    cases same
    obtain ⟨_, _, _, configured⟩ := loaded.configured
    refine ⟨(configureZone_ok configured).2.1 absent, ?_⟩
    cases word <;> decide
  | reload before loaded live ih =>
    cases same
    obtain ⟨count, fits⟩ := ih rfl
    obtain ⟨_, _, _, configured⟩ := loaded.configured
    obtain ⟨_, earlierLoaded⟩ := before.loaded
    obtain ⟨more, next⟩ := (configureZone_ok configured).1 _ earlierLoaded.found
    rw [earlierLoaded.number, count] at more next
    simp only [List.length_cons]
    omega

/-- The numbers of the generations count down to one. -/
theorem reloads_numbers {eras : List Era} (reloads : Reloads word module tag eras) :
    eras.map (·.request.generation) = (List.range' 1 eras.length).reverse := by
  -- Induction on the chain: each reload counts one further.
  induction reloads with
  | start absent loaded =>
    have count := (reloads_count (.start absent loaded)).1
    simp [count]
  | reload before loaded live ih =>
    have count := (reloads_count (.reload before loaded live)).1
    have more : ∀ k, (List.range' 1 (k + 1)).reverse = (k + 1) :: (List.range' 1 k).reverse := by
      intro k
      rw [List.range'_1_concat, List.reverse_append, Nat.add_comm 1 k]
      rfl
    rw [List.map_cons, count, ih]
    exact (more _).symm

/-- What holds of one generation of a history. -/
theorem Reloads.member {eras : List Era} (reloads : Reloads word module tag eras) {era : Era}
    (member : era ∈ eras) : era.request.generation ≤ word.max ∧
      ∃ oldCycle, era.Loaded word module tag oldCycle := by
  -- A generation is the newest one of a shorter history.
  induction reloads with
  | start absent loaded =>
    cases List.mem_singleton.mp member
    obtain ⟨count, fits⟩ := reloads_count (.start absent loaded)
    exact ⟨by omega, _, loaded⟩
  | reload before loaded live ih =>
    rcases List.mem_cons.mp member with rfl | older
    · obtain ⟨count, fits⟩ := reloads_count (.reload before loaded live)
      exact ⟨by omega, _, loaded⟩
    · exact ih older

/-- The generations of a module are numbered from one on without a gap, and there are no more of
them than there are numbers; the next cycle finds the table of the newest one; every zone has the
whole name of its module and number and at least one MiB; and no two zones of the two modules ever
have one name. -/
theorem generations_numbered {eras : List Era} (reloads : Reloads word module tag eras) :
    eras.map (·.request.generation) = (List.range' 1 eras.length).reverse ∧
    eras.length ≤ word.max ∧
    (∀ era ∈ eras, findLatestPeersShm (some era.zones) tag = some era.table ∧
      era.table.generation = era.request.generation ∧
      era.request.name = bytes "ngx_" ++ module.kind ++ bytes "_upstream_check#" ++
        numeral era.request.generation ∧
      1024 * 1024 ≤ era.request.size) ∧
    (eras.map (·.request.name)).Nodup ∧
    ∀ {other : Module} {otherTag : Nat} {others : List Era},
      Reloads word other otherTag others → ∀ era ∈ eras, ∀ era' ∈ others,
        era.request.name = era'.request.name →
          module = other ∧ era.request.generation = era'.request.generation := by
  have numbers := reloads_numbers reloads
  -- Every zone is named after its module and its number.
  have named : ∀ {other : Module} {otherTag : Nat} {others : List Era},
      Reloads word other otherTag others → ∀ era ∈ others,
        era.request.name = zoneName other era.request.generation ∧
          1024 * 1024 ≤ era.request.size := by
    intro other otherTag others history era member
    obtain ⟨_, _, loaded⟩ := history.member member
    obtain ⟨_, _, _, configured⟩ := loaded.configured
    exact (configureZone_ok configured).2.2
  refine ⟨numbers, ?_, fun era member => ?_, ?_, ?_⟩
  · cases reloads with
    | start absent loaded => exact (reloads_count (.start absent loaded)).2
    | reload before loaded live => exact (reloads_count (.reload before loaded live)).2
  · -- Every number is a word, whose digits fit into the room for the name.
    obtain ⟨fits, _, loaded⟩ := reloads.member member
    obtain ⟨name, size⟩ := named reloads era member
    exact ⟨loaded.found, loaded.number, name.trans (zoneName_whole module fits), size⟩
  · -- Different numbers make different names.
    have distinct : (eras.map (·.request.generation)).Nodup := by
      rw [numbers, List.nodup_reverse]
      exact List.nodup_range'
    refine List.pairwise_map.mpr ((List.pairwise_map.mp distinct).imp_of_mem
      fun first second differ same => differ ?_)
    rw [(named reloads _ first).1, (named reloads _ second).1] at same
    exact (zoneName_injective (reloads.member first).1 (reloads.member second).1 same).2
  · intro other otherTag others history era member era' member' same
    rw [(named reloads era member).1, (named history era' member').1] at same
    exact zoneName_injective (reloads.member member).1 (history.member member').1 same

/-- One server, checked at its own address. -/
def soloZone (generation : Nat) : ZoneConf :=
  { sampleZone with generation := generation, peers := [samplePeer [97] [7]] }

/-- A generation that checks that server. -/
def soloEra (generation : Nat) (env : ZoneEnv) (table : PeersShm) (shared : Shared) : Era :=
  { zones := [{ tag := 0, data := some (some table) }]
    request := { module := .http, generation := generation, name := zoneName .http generation
                 size := 1024 * 1024 }
    conf := soloZone generation, env := env, gen := { sample with generation := generation }
    table := table, shared := shared }

/-- The sample generation is loaded when its zone is initialized. -/
theorem soloEra_loaded {generation : Nat} {env : ZoneEnv} {oldCycle : Option (List ShmZone)}
    {table : PeersShm} {shared : Shared}
    (configured : configureZone .bits64 .http 0 0 true true oldCycle =
      .ok (soloEra generation env table shared).request)
    (done : initZone (soloZone generation) env oldCycle = some (table, shared)) :
    (soloEra generation env table shared).Loaded .bits64 .http 0 oldCycle := by
  -- Both steps of the cycle are given.
  refine ⟨⟨0, true, true, configured⟩, done, rfl, rfl, rfl, rfl, rfl, rfl, rfl, ?_⟩
  intro i peer listed
  cases i with
  | zero =>
    cases listed
    rfl
  | succ i => cases listed

/-- The server is checked on after a reload. -/
theorem solo_reload {env : ZoneEnv} {old : Era} {earlier : List Era} {table : PeersShm}
    {shared : Shared} (before : Reloads .bits64 .http 0 (old :: earlier))
    (more : earlier.length + 1 < Word.bits64.max)
    (done : initZone (soloZone (earlier.length + 2)) env (some old.zones) = some (table, shared))
    (live : ∀ i, ∃ s, old.Reaches s ∧ env.memory i = s.shared.peers) :
    Reloads .bits64 .http 0 (soloEra (earlier.length + 2) env table shared :: old :: earlier) := by
  refine .reload before (soloEra_loaded ?_ done) live
  -- The number follows the one in the old table.
  obtain ⟨_, loaded⟩ := before.loaded
  have number := loaded.number.trans (reloads_count before).1
  simp only [configureZone, loaded.found, number, Option.any_some, Option.map_some]
  rw [if_neg (by simpa using more.ne)]
  rfl

/-- The first generation, and the second one over it. -/
def reloadedZone : Option ((PeersShm × Shared) × (PeersShm × Shared)) :=
  (initZone (soloZone 1) sampleEnv none).bind fun first =>
    (initZone (soloZone 2) { sampleEnv with memory := fun _ => first.2.peers }
      (some [{ tag := 0, data := some (some first.1) }])).map fun second => (first, second)

/-- Two generations of the HTTP module, the second of which has the number 2 in its zone's name. -/
theorem generations_numbered_reloaded : ∃ new old, Reloads .bits64 .http 0 [new, old] ∧
    findLatestPeersShm (some new.zones) 0 = some new.table ∧ new.table.generation = 2 ∧
    new.request.name = bytes "ngx_http_upstream_check#2" ∧
    new.request.name ≠ old.request.name := by
  -- The second generation finds the table of the first one.
  have present : reloadedZone.isSome := by decide +kernel
  obtain ⟨⟨⟨table, shared⟩, table', shared'⟩, both⟩ := Option.isSome_iff_exists.mp present
  simp only [reloadedZone, Option.bind_eq_some_iff, Option.map_eq_some_iff] at both
  obtain ⟨_, first, _, second, same⟩ := both
  cases same
  have start : Reloads .bits64 .http 0 [soloEra 1 sampleEnv table shared] :=
    .start rfl (soloEra_loaded rfl first)
  have reloads := solo_reload start (by decide) second
    fun i => ⟨(soloEra 1 sampleEnv table shared).first, .refl, rfl⟩
  obtain ⟨numbers, _, each, distinct, _⟩ := generations_numbered reloads
  obtain ⟨found, number, name, _⟩ := each _ List.mem_cons_self
  have second : bytes "ngx_" ++ Module.http.kind ++ bytes "_upstream_check#" ++ numeral 2 =
      bytes "ngx_http_upstream_check#2" := by
    decide +kernel
  refine ⟨_, _, reloads, found, number, name.trans second, fun same => ?_⟩
  exact (List.nodup_cons.mp distinct).1 (List.mem_cons.mpr (.inl same))

end Healthcheck
