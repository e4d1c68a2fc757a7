import Mathlib
import PrivateFootage.Proofs.Cache.Files
import PrivateFootage.Proofs.Cache.Key
import PrivateFootage.Proofs.Footage.Places
import PrivateFootage.Proofs.Query.Windows

/-!
# Stored results are the computed ones

Under one configuration, the results of a query depend on what its key says and on nothing else. So a
record that was stored under a key holds what every query with that key would compute, and since records
are stored beside the footage, storing one does not change what is computed. Queries that ask for their
results in turn therefore obtain what they would compute without any stored results.

This holds however the outcomes of work that is done side by side are collected, for each query in a way of its
own. Results do not depend on it, and the error of a computation that fails is the one that it would report.
-/

namespace PrivateFootage

/-- A key starts with the video, so its file starts with a name. -/
theorem startsPlain_cacheKey {video : String} (hvideo : '/' ∉ video.toList) (rendition : Rendition)
    (framesPerChunk : ℕ) (descriptor : String) (splitCount : Option ℕ) :
    Store.StartsPlain (cacheKey video rendition framesPerChunk descriptor splitCount ++ ".json") := by
  obtain ⟨tail, htail⟩ : ∃ tail, (cacheKey video rendition framesPerChunk descriptor splitCount ++
      ".json").toList = (video.toList ++ ['_']) ++ tail := by
    unfold cacheKey
    cases rendition.isSplit <;> cases splitCount <;>
      simp only [toString, String.toList_append, List.append_assoc] <;> exact ⟨_, rfl⟩
  have hfree : '/' ∉ video.toList ++ ['_'] := by
    rw [List.mem_append, not_or]
    exact ⟨hvideo, by decide⟩
  obtain ⟨piece, pieces, hsplit⟩ := Text.exists_split_eq_cons '/' tail
  constructor
  · rw [Path.isAbsolute, htail, List.head?_append_of_ne_nil _ (by simp), decide_eq_false_iff_not]
    intro hhead
    exact hfree (List.mem_of_mem_head? hhead)
  · refine ⟨String.ofList (video.toList ++ ['_'] ++ piece), pieces.map String.ofList, ?_, ?_⟩
    · rw [Path.parts, Text.splitString, htail, Text.split_append_of_notMem hfree hsplit, List.map_cons]
    · have hne : ∀ text : String, '_' ∉ text.toList →
          String.ofList (video.toList ++ ['_'] ++ piece) ≠ text := by
        rintro text hnone rfl
        rw [String.toList_ofList] at hnone
        exact hnone (by simp)
      exact ⟨hne _ (by decide), hne _ (by decide), hne _ (by decide)⟩

namespace Query

variable {α : Type} [Scalar α] {query first second : Query α} {before after store : Store}
  {results : List (ChunkResult α)}

/-! ### What a computation depends on -/

/-- Computations over footage that reads the same come to the same. -/
theorem computeWith_congr (collector : Collector)
    (hread : ∀ footage, query.footage = .ok footage → ∀ hour region,
      after.read (footage.file hour region) = before.read (footage.file hour region)) :
    query.computeWith collector after = query.computeWith collector before := by
  rw [computeWith, computeWith]
  cases hfootage : query.footage with
  | error error => rfl
  | ok footage =>
    have hchunks : ∀ region, (footage.chunks after region : Outcome (List (Outcome (Chunk α)))) =
        footage.chunks before region := Footage.chunks_congr (hread footage hfootage)
    change query.computeFrom collector after footage = query.computeFrom collector before footage
    simp only [computeFrom, computeRegionsWith, Footage.lockstepChunks, hchunks]

/-- Results that are computed with one way of collecting are computed with every other. -/
theorem computeWith_eq_ok_of_eq_ok (haccepted : query.Accepted) {collector : Collector}
    (hcompute : query.computeWith collector store = .ok results) (other : Collector) :
    query.computeWith other store = .ok results :=
  (computeWith_eq_ok_iff haccepted).mpr ((computeWith_eq_ok_iff haccepted).mp hcompute)

/-- Under one configuration, queries with equal keys compute the same, if their descriptors tell their
aggregators apart. -/
theorem computeWith_eq_of_key (hfirst : first.Accepted) (hsecond : second.Accepted)
    (hconfig : first.config = second.config) (hfree : MarkFree first.aggregator.descriptor)
    (hfree' : MarkFree second.aggregator.descriptor)
    (hinvoke : first.aggregator.descriptor = second.aggregator.descriptor →
      first.aggregator.invoke = second.aggregator.invoke)
    (hkey : first.key = second.key) (collector : Collector) (store : Store) :
    first.computeWith collector store = second.computeWith collector store := by
  obtain ⟨hvideo, hrendition, hframes, hdescriptor, hcount⟩ := cacheKey_inj hfree hfree' hkey
  have haggregator : first.aggregator = second.aggregator := by
    cases hleft : first.aggregator
    cases hright : second.aggregator
    rw [hleft, hright] at hdescriptor hinvoke
    rw [Aggregator.mk.injEq]
    exact ⟨hdescriptor, hinvoke hdescriptor⟩
  have hfootage : first.footage = second.footage := by
    rw [footage, footage, hconfig, hvideo, hrendition, hframes]
  rw [computeWith, computeWith, hfootage]
  congr 1
  funext footage
  cases hkind : first.spec.rendition with
  | unmasked | masked | reserved =>
    have hkind' := hrendition.symm.trans hkind
    simp only [computeFrom, hkind, hkind', hconfig, haggregator]
  | maskedRegions =>
    have hkind' := hrendition.symm.trans hkind
    obtain ⟨params, count, hparams, hsplits, -⟩ := hfirst.regions_count hkind
    obtain ⟨params', count', hparams', hsplits', -⟩ := hsecond.regions_count hkind'
    have hsame := hcount (by rw [hkind]; rfl)
    rw [hparams, hparams', Option.bind_some, Option.bind_some, hsplits, hsplits', Option.some.injEq]
      at hsame
    simp only [computeFrom, hkind, hkind', hparams, hparams', hsplits, hsplits', hsame,
      computeRegionsWith, hconfig, haggregator]

/-- The results of an aggregator whose values can be stored can be stored. -/
theorem storable_of_computeWith (haccepted : query.Accepted) {collector : Collector}
    (hvalues : ∀ chunk value, query.aggregator.invoke chunk = .ok value → value.Storable)
    (hcompute : query.computeWith collector store = .ok results) : ∀ result ∈ results, result.Storable := by
  rw [computeWith_eq_ok_iff haccepted] at hcompute
  obtain ⟨recordings, ⟨footage, hfootage, hreads⟩, rfl⟩ := hcompute
  have hlength : ∀ values ∈ recordings.map (List.map (valueOf query.aggregator)),
      values.length = footage.chunkCount := by
    intro values hmem
    obtain ⟨chunks, hchunks, rfl⟩ := List.mem_map.mp hmem
    rw [List.length_map]
    exact (hreads.whole_chunks haccepted (haccepted.opens hfootage) chunks hchunks).1
  have hregions : ∀ values ∈ recordings.map (List.map (valueOf query.aggregator)),
      ∀ value ∈ values, value.Storable := by
    intro values hmem value hvalue
    obtain ⟨chunks, hchunks, rfl⟩ := List.mem_map.mp hmem
    obtain ⟨chunk, hchunk, rfl⟩ := List.mem_map.mp hvalue
    exact hvalues chunk _ (invoke_eq_valueOf (hreads.aggregated chunks hchunks chunk hchunk))
  intro result hresult
  rw [resultsOf, assemble] at hresult
  split_ifs at hresult
  · obtain ⟨row, hrow, rfl⟩ := List.mem_map.mp hresult
    intro value hvalue
    obtain ⟨values, hmem, hvalue⟩ := exists_mem_of_mem_joinRows hlength hrow hvalue
    exact hregions values hmem value hvalue
  · obtain ⟨value, hvalue, rfl⟩ := List.mem_map.mp hresult
    obtain ⟨values, hmem, hvalue⟩ := List.mem_flatten.mp hvalue
    exact hregions values hmem value hvalue

omit [Scalar α] in
/-- The footage of a query is below the data of its configuration. -/
theorem isBelow_of_footage (hvideo : '/' ∉ query.spec.video.toList) {footage : Footage}
    (hfootage : query.footage = .ok footage) : footage.IsBelow query.config.dataRoot := by
  obtain ⟨hours, decimation, -, -, rfl⟩ := footage_eq_ok hfootage
  refine ⟨?_, hvideo⟩
  unfold Footage.directory Footage.folder
  cases query.spec.rendition <;> rfl

/-- A computation that succeeds has found the data. -/
theorem exists_root_of_computeWith (haccepted : query.Accepted) (hvideo : '/' ∉ query.spec.video.toList)
    {collector : Collector} (hcompute : query.computeWith collector store = .ok results) :
    ∃ root, store.descend query.config.dataRoot = .ok root ∧ store.IsDirectory root := by
  rw [computeWith_eq_ok_iff haccepted] at hcompute
  obtain ⟨recordings, ⟨footage, hfootage, hreads⟩, -⟩ := hcompute
  have hopens := haccepted.opens hfootage
  have hhours : footage.hours ≠ [] := by
    intro hnone
    have hpos := hopens.frameCount_pos
    rw [Footage.frameCount, hnone, List.length_nil, Nat.zero_mul] at hpos
    exact absurd hpos (lt_irrefl 0)
  obtain ⟨region, hregion⟩ := List.exists_mem_of_ne_nil _ haccepted.regions_ne_nil
  obtain ⟨chunks, -, hchunks⟩ := exists_right_of_forall₂ hreads.read hregion
  obtain ⟨hour, content, hread⟩ :=
    Footage.exists_read_of_chunks hhours (hopens.hasRegion region hregion) hchunks
  exact (isBelow_of_footage hvideo hfootage).exists_root hread

/-! ### Queries that obtain results in turn -/

/-- What obtaining results comes to, if none are kept: they are obtained by way of the key. -/
theorem obtainResults_eq {now : Instant} {compute : Unit → Outcome (List (ChunkResult α))}
    {outcome : Outcome (List (ChunkResult α))} {stored : Store} (hnone : query.results = none)
    (hobtain : query.cache.getOrCompute now store query.key compute = (outcome, stored)) :
    (query.obtainResults now store compute).1 = outcome ∧
      (query.obtainResults now store compute).2.2 = stored := by
  rw [obtainResults, hnone]
  dsimp only
  rw [hobtain]
  cases outcome <;> exact ⟨rfl, rfl⟩

/-- A query that asks for its results at a time. When it computes them, the outcomes of what is worked on
side by side are collected in a way of its own. -/
structure Asking (α : Type) where
  now : Instant
  collector : Collector
  query : Query α

namespace Asking

/-- What the query computes from the data in a store. -/
def computed (asking : Asking α) (store : Store) : Outcome (List (ChunkResult α)) :=
  asking.query.computeWith asking.collector store

/-- What the query obtains, and the store that it leaves. -/
def obtained (asking : Asking α) (store : Store) : Outcome (List (ChunkResult α)) × Store :=
  let (outcome, _, stored) := asking.query.obtainResults asking.now store fun _ => asking.computed store
  (outcome, stored)

/-- What is obtained, if no results are kept, comes by way of the key. -/
theorem obtained_eq {asking : Asking α} {outcome : Outcome (List (ChunkResult α))} {stored : Store}
    (hnone : asking.query.results = none)
    (hobtain : asking.query.cache.getOrCompute asking.now store asking.query.key
      (fun _ => asking.computed store) = (outcome, stored)) :
    asking.obtained store = (outcome, stored) :=
  Prod.ext (obtainResults_eq hnone hobtain).1 (obtainResults_eq hnone hobtain).2

/-- The record of a query is read or is missing, and results that are computed are saved. -/
structure FileWorks (asking : Asking α) (store : Store) : Prop where
  read : ∀ fault, store.readText (asking.query.cache.path asking.query.key) = .error fault →
    fault = .missing
  save : ∀ results,
    asking.query.cache.load store asking.query.key = .ok (none : Option (List (ChunkResult α))) →
    asking.computed store = .ok results →
      (asking.query.cache.save asking.now store asking.query.key results).1 = .ok ()

end Asking

/-- What queries obtain that ask for their results in turn. -/
def answers (store : Store) : List (Asking α) → List (Outcome (List (ChunkResult α)))
  | [] => []
  | asking :: rest => (asking.obtained store).1 :: answers (asking.obtained store).2 rest

/-- The file operations on stored results work for every query in turn. -/
def FilesWork (store : Store) : List (Asking α) → Prop
  | [] => True
  | asking :: rest => asking.FileWorks store ∧ FilesWork (asking.obtained store).2 rest

/-- Queries under one configuration whose results can be stored and told apart by their keys. -/
structure Compatible (config : Config) (calls : List (Asking α)) : Prop where
  accepted : ∀ call ∈ calls, ∃ spec aggregator, ofSpec config spec aggregator = .ok call.query
  time_valid : ∀ call ∈ calls, call.now.Valid
  video_free : ∀ call ∈ calls, '/' ∉ call.query.spec.video.toList
  descriptor_free : ∀ call ∈ calls, MarkFree call.query.aggregator.descriptor
  storable : ∀ call ∈ calls, ∀ chunk value, call.query.aggregator.invoke chunk = .ok value →
    value.Storable
  invoke_eq : ∀ first ∈ calls, ∀ second ∈ calls,
    first.query.aggregator.descriptor = second.query.aggregator.descriptor →
      first.query.aggregator.invoke = second.query.aggregator.invoke

/-- Nothing has changed for the queries since a first store: they compute what they computed then, and
whatever is stored was computed then. -/
structure Consistent (config : Config) (calls : List (Asking α)) (initial current : Store) : Prop where
  computed_eq : ∀ call ∈ calls, call.computed current = call.computed initial
  recorded : ∀ place, current.locate config.resultsDirectory = .ok place →
    ∀ name entry, current.entry? (place ++ [name]) = some entry →
      ∃ call ∈ calls, ∃ time results, time.Valid ∧ call.computed initial = .ok results ∧
        name = call.query.key ++ ".json" ∧
        entry = .file (CacheRecord.text ⟨call.query.key, some time, results⟩).toUTF8

/-- The folder of stored results is a folder. -/
theorem isFolder_results : Store.IsFolder "query_results" :=
  ⟨⟨by decide, by decide, by decide⟩, by decide⟩

variable {config : Config} {calls : List (Asking α)} {initial current : Store} {call : Asking α}

/-- What acceptance says about the queries under one configuration. -/
theorem Compatible.accepted_of_mem (hcalls : Compatible config calls) (hcall : call ∈ calls) :
    call.query.Accepted ∧ call.query.config = config := by
  obtain ⟨spec, aggregator, hquery⟩ := hcalls.accepted call hcall
  obtain ⟨chunks, -, hsame⟩ := ofSpec_eq_ok_iff.mp hquery
  exact ⟨accepted_of_ofSpec hquery, by rw [hsame]⟩

/-- Equal keys are those of equal results, in whatever ways they are collected. -/
theorem Compatible.computed_eq_ok (hcalls : Compatible config calls) {other : Asking α}
    (hcall : call ∈ calls) (hother : other ∈ calls) (hkey : call.query.key = other.query.key)
    (hcompute : other.computed store = .ok results) : call.computed store = .ok results := by
  obtain ⟨haccepted, hconfig⟩ := hcalls.accepted_of_mem hcall
  obtain ⟨haccepted', hconfig'⟩ := hcalls.accepted_of_mem hother
  have hsame := computeWith_eq_of_key haccepted haccepted' (hconfig.trans hconfig'.symm)
    (hcalls.descriptor_free call hcall) (hcalls.descriptor_free other hother)
    (hcalls.invoke_eq call hcall other hother) hkey call.collector store
  rw [Asking.computed, hsame]
  exact computeWith_eq_ok_of_eq_ok haccepted' hcompute call.collector

/-- The file of a query's results. -/
theorem Compatible.path_eq (hcalls : Compatible config calls) (hcall : call ∈ calls) :
    call.query.cache.path call.query.key =
      Path.join (Path.join config.dataRoot "query_results") (call.query.key ++ ".json") := by
  rw [← (hcalls.accepted_of_mem hcall).2]
  rfl

/-- A consistent folder of results holds files only. -/
theorem Consistent.holdsFiles (hconsistent : Consistent config calls initial current)
    (place : List String) (hplace : current.locate config.resultsDirectory = .ok place) :
    current.HoldsFiles place := by
  intro name entry hentry
  obtain ⟨call, -, time, results, -, -, -, hfile⟩ := hconsistent.recorded place hplace name entry hentry
  exact ⟨_, hfile⟩

/-- A record that is found holds what the query computes. -/
theorem Consistent.load_eq (hcalls : Compatible config calls)
    (hconsistent : Consistent config calls initial current) (hcall : call ∈ calls) {text : String}
    (hread : current.readText (call.query.cache.path call.query.key) = .ok text) :
    ∃ results, call.computed initial = .ok results ∧
      call.query.cache.load current call.query.key = .ok (some results) := by
  have hfound := hread
  rw [hcalls.path_eq hcall, Store.readText_eq_ok_iff] at hfound
  obtain ⟨content, hcontent, htext⟩ := hfound
  obtain ⟨place, hplace, hentry⟩ := Store.entry?_of_read isFolder_results hconsistent.holdsFiles
    (startsPlain_cacheKey (hcalls.video_free call hcall) _ _ _ _) hcontent
  obtain ⟨other, hother, time, results, htime, hcompute, hname, hfile⟩ :=
    hconsistent.recorded place hplace _ _ hentry
  have hkey : call.query.key = other.query.key := by
    have hchars := congrArg String.toList hname
    rw [String.toList_append, String.toList_append] at hchars
    exact String.toList_injective (List.append_cancel_right hchars)
  have hrecord : (⟨other.query.key, some time, results⟩ : CacheRecord α).Storable :=
    ⟨storable_of_computeWith (hcalls.accepted_of_mem hother).1 (hcalls.storable other hother) hcompute,
      fun other hother => Option.some.inj hother ▸ htime⟩
  rw [Entry.file.injEq] at hfile
  rw [hfile, fromUTF8?_toUTF8, Option.some.injEq] at htext
  refine ⟨results, hcalls.computed_eq_ok hcall hother hkey hcompute, ?_⟩
  rw [← htext] at hread
  exact Cache.load_of_record hrecord hread

/-- Saving what a query computes changes nothing for the queries. -/
theorem Consistent.save (hcalls : Compatible config calls)
    (hconsistent : Consistent config calls initial current) (hcall : call ∈ calls)
    {results : List (ChunkResult α)} {stored : Store} (hcompute : call.computed current = .ok results)
    (hsave : call.query.cache.save call.now current call.query.key results = (.ok (), stored)) :
    Consistent config calls initial stored := by
  obtain ⟨haccepted, hconfig⟩ := hcalls.accepted_of_mem hcall
  obtain ⟨root, hroot, hdirectory⟩ :=
    exists_root_of_computeWith haccepted (hcalls.video_free call hcall) hcompute
  rw [hconfig] at hroot
  obtain ⟨prepared, hmake, hwrite⟩ := Cache.save_eq_ok_iff.mp hsave
  rw [hcalls.path_eq hcall] at hwrite
  have hfolder : call.query.cache.directory = Path.join config.dataRoot "query_results" := by
    rw [← hconfig]
    rfl
  rw [hfolder] at hmake
  obtain ⟨hplace, hadds⟩ := Store.adds_of_write isFolder_results hroot hdirectory
    hconsistent.holdsFiles (startsPlain_cacheKey (hcalls.video_free call hcall) _ _ _ _) hmake hwrite
  constructor
  · intro other hother
    rw [← hconsistent.computed_eq other hother]
    apply computeWith_congr
    intro footage hfootage hour region
    have hbelow := isBelow_of_footage (hcalls.video_free other hother) hfootage
    rw [(hcalls.accepted_of_mem hother).2] at hbelow
    exact hbelow.read_file_eq hroot hadds
  · intro place hlocate name entry hentry
    obtain ⟨-, -, rfl⟩ := (Store.locate_folder_eq_ok_iff isFolder_results
      (hadds.descend_eq hroot)).mp hlocate
    rw [hadds.entry?_eq] at hentry
    split_ifs at hentry with hnew hsame
    · refine ⟨call, hcall, call.now, results, hcalls.time_valid call hcall, ?_, ?_,
        (Option.some.inj hentry).symm⟩
      · rw [← hconsistent.computed_eq call hcall, hcompute]
      · exact (List.cons.inj (List.append_cancel_left hnew)).1
    · exact absurd hsame (by simp)
    · exact hconsistent.recorded _ hplace name entry hentry

/-- A query that asks for its results obtains what it computes, and changes nothing for the others. -/
theorem Consistent.step (hcalls : Compatible config calls)
    (hconsistent : Consistent config calls initial current) (hcall : call ∈ calls)
    (hworks : call.FileWorks current) :
    (call.obtained current).1 = call.computed initial ∧
      Consistent config calls initial (call.obtained current).2 := by
  have hnone := (hcalls.accepted_of_mem hcall).1.results_eq
  have hsame := hconsistent.computed_eq call hcall
  cases hread : current.readText (call.query.cache.path call.query.key) with
  | ok text =>
    obtain ⟨results, hcompute, hload⟩ := hconsistent.load_eq hcalls hcall hread
    rw [Asking.obtained_eq hnone (Cache.getOrCompute_of_stored hload), hcompute]
    exact ⟨rfl, hconsistent⟩
  | error fault =>
    rw [hworks.read fault hread] at hread
    have hload := Cache.load_of_missing (α := α) hread
    cases hcompute : call.computed current with
    | error error =>
      rw [Asking.obtained_eq hnone (Cache.getOrCompute_of_error hload hcompute), ← hsame, hcompute]
      exact ⟨rfl, hconsistent⟩
    | ok results =>
      have hsave : call.query.cache.save call.now current call.query.key results =
          (.ok (), (call.query.cache.save call.now current call.query.key results).2) :=
        Prod.ext (hworks.save results hload hcompute) rfl
      rw [Asking.obtained_eq hnone (Cache.getOrCompute_of_computed hload hcompute hsave), ← hsame, hcompute]
      exact ⟨rfl, hconsistent.save hcalls hcall hcompute hsave⟩

/-- Queries that ask in turn obtain what they compute. -/
theorem Consistent.answers_eq (hcalls : Compatible config calls) {todo : List (Asking α)}
    (htodo : ∀ call ∈ todo, call ∈ calls) (hconsistent : Consistent config calls initial current)
    (hworks : FilesWork current todo) :
    answers current todo = todo.map fun call => call.computed initial := by
  induction todo generalizing current with
  | nil => rfl
  | cons call todo ih =>
    obtain ⟨hfirst, hrest⟩ := hworks
    obtain ⟨houtcome, hnext⟩ := hconsistent.step hcalls (htodo call (List.mem_cons_self ..)) hfirst
    rw [answers, List.map_cons, houtcome,
      ih (fun other hother => htodo other (List.mem_cons_of_mem _ hother)) hnext hrest]

/-- The folder of stored results has nothing in it. -/
def Vacant (config : Config) (store : Store) : Prop :=
  ∀ place, store.locate config.resultsDirectory = .ok place →
    ∀ name, store.entry? (place ++ [name]) = none

/-- What runs asks with the collector that reports the first error. -/
theorem obtained_inOrder (now : Instant) (query : Query α) (store : Store) :
    Asking.obtained ⟨now, .inOrder, query⟩ store =
      ((query.ensureResults now store).1, (query.ensureResults now store).2.2) := by
  rw [ensureResults, compute_eq]
  rfl

/-- Queries under one configuration that ask for their results in turn, starting with no stored results,
obtain what each would compute from the data: the same results, or the same error. Which error is reported
where several things go wrong side by side is up to the collector of each query, whatever that is. What runs
has the collector that reports the first one. -/
theorem answers_eq_computed (hcalls : Compatible config calls) (hvacant : Vacant config store)
    (hworks : FilesWork store calls) :
    (answers store calls = calls.map fun call => call.query.computeWith call.collector store) ∧
    ∀ (now : Instant) (query : Query α) (store : Store),
      query.compute store = query.computeWith .inOrder store ∧
      Asking.obtained ⟨now, .inOrder, query⟩ store =
        ((query.ensureResults now store).1, (query.ensureResults now store).2.2) := by
  have hconsistent : Consistent config calls store store := by
    refine ⟨fun _ _ => rfl, fun place hplace name entry hentry => ?_⟩
    rw [hvacant place hplace name] at hentry
    cases hentry
  exact ⟨hconsistent.answers_eq hcalls (fun _ hcall => hcall) hworks,
    fun now query store => ⟨compute_eq query store, obtained_inOrder now query store⟩⟩

variable {now : Instant} {stored : Store}

/-- File operations work where the record is missing and can be saved. -/
theorem fileWorks_of_missing {asking : Asking α}
    (hread : store.readText (asking.query.cache.path asking.query.key) = .error .missing)
    (hsave : ∀ results : List (ChunkResult α),
      (asking.query.cache.save asking.now store asking.query.key results).1 = .ok ()) :
    asking.FileWorks store := by
  refine ⟨fun fault hfault => ?_, fun results _ _ => hsave results⟩
  rw [hread] at hfault
  exact (Except.error.inj hfault).symm

/-- File operations work where the results were saved. -/
theorem fileWorks_of_save {asking : Asking α} (hresults : ∀ result ∈ results, result.Storable)
    (hnow : now.Valid)
    (hsave : asking.query.cache.save now store asking.query.key results = (.ok (), stored)) :
    asking.FileWorks stored := by
  obtain ⟨prepared, -, hwrite⟩ := Cache.save_eq_ok_iff.mp hsave
  constructor
  · intro fault hfault
    rw [Store.readText_of_write hwrite] at hfault
    cases hfault
  · intro results hnone
    rw [Cache.load_of_save hresults hnow hsave] at hnone
    cases hnone

/-- The hour of the street as one chunk. -/
def wholeHour (rendition : Rendition) (function : WindowFunction) : Query ℚ where
  spec := { video := "street", rendition, framesPerChunk := 3600, chunksPerWindow := 1, function }
  aggregator := .zero ℚ
  config := streetHours [0]
  chunkCount := 1

/-- A query without footage, and two queries with one key. -/
def hourCalls : List (Asking ℚ) :=
  [⟨⟨0, 0⟩, .inOrder, wholeHour .masked .sum⟩, ⟨⟨1, 0⟩, .inOrder, wholeHour .unmasked .sum⟩,
    ⟨⟨2, 0⟩, .inOrder, wholeHour .unmasked .mean⟩]

/-- A store in which nothing was detected on the street. -/
def quietStreet : Store where
  entries :=
    [(["data"], .directory), (["data", "features"], .directory),
      (["data", "features", "street"], .directory),
      (["data", "features", "street", "street0.csv"], .file "".toUTF8)]

/-- The store with the results of the hour. -/
def hourStored : Store :=
  ((wholeHour .unmasked .sum).cache.save ⟨1, 0⟩ quietStreet (wholeHour .unmasked .sum).key
    [.single (.plain (0 : ℚ))]).2

/-- Zero is read back from its value. -/
theorem roundTrips_zero : Json.RoundTrips (0 : ℚ) := by
  unfold Json.RoundTrips
  decide +kernel

/-- A result of zero can be stored. -/
theorem storable_zero : ∀ result ∈ [ChunkResult.single (.plain (0 : ℚ))], result.Storable := by
  simpa [ChunkResult.Storable, ChunkValue.Storable] using roundTrips_zero

/-- The queries for the hour of the street are compatible. -/
theorem compatible_hourCalls : Compatible (streetHours [0]) hourCalls := by
  have hzero : ∀ call ∈ hourCalls, call.query.aggregator = .zero ℚ := by
    intro call hcall
    simp only [hourCalls, List.mem_cons, List.not_mem_nil, or_false] at hcall
    rcases hcall with rfl | rfl | rfl <;> rfl
  constructor
  case accepted =>
    intro call hcall
    refine ⟨call.query.spec, .zero ℚ, ?_⟩
    simp only [hourCalls, List.mem_cons, List.not_mem_nil, or_false] at hcall
    rcases hcall with rfl | rfl | rfl <;> rfl
  case time_valid =>
    intro call hcall
    simp only [hourCalls, List.mem_cons, List.not_mem_nil, or_false] at hcall
    rcases hcall with rfl | rfl | rfl <;> constructor <;> decide
  case video_free => decide
  case descriptor_free =>
    intro call hcall
    rw [hzero call hcall]
    constructor <;> decide
  case storable =>
    intro call hcall chunk value hvalue
    rw [hzero call hcall] at hvalue
    cases hvalue
    exact roundTrips_zero
  case invoke_eq =>
    intro first hfirst second hsecond _
    rw [hzero first hfirst, hzero second hsecond]

/-- No results are stored for the street. -/
theorem vacant_quietStreet : Vacant (streetHours [0]) quietStreet := by
  intro place hplace name
  have hlocate : quietStreet.locate (streetHours [0]).resultsDirectory =
      .ok ["data", "query_results"] := rfl
  rw [hlocate] at hplace
  cases hplace
  simp [quietStreet, Store.entry?]

/-- The hour has no footage for the first query, and comes to zero for the others. -/
theorem wholeHour_computed :
    (wholeHour .masked .sum).compute quietStreet =
        .error (.fileNotFound "/data/masked_features/street/street0.csv") ∧
      ∀ function, (wholeHour .unmasked function).compute quietStreet = .ok [.single (.plain 0)] := by
  have hhour : readHour quietStreet ((streetFootage 0 .unmasked).file 0 none) =
      .ok ([] : List (Row ℚ)) := by decide +kernel
  refine ⟨rfl, fun function => ?_⟩
  cases function <;> exact compute_street rfl rfl hhour rfl

/-- The first query stores nothing, the second stores its results and the third finds them. -/
theorem filesWork_hourCalls : FilesWork quietStreet hourCalls := by
  obtain ⟨hmissing, hcompute⟩ := wholeHour_computed
  simp only [compute_eq] at hmissing hcompute
  have hreadMasked : quietStreet.readText ((wholeHour .masked .sum).cache.path
      (wholeHour .masked .sum).key) = .error .missing := rfl
  have hread : quietStreet.readText ((wholeHour .unmasked .sum).cache.path
      (wholeHour .unmasked .sum).key) = .error .missing := rfl
  have hsave : (wholeHour .unmasked .sum).cache.save ⟨1, 0⟩ quietStreet
      (wholeHour .unmasked .sum).key [.single (.plain (0 : ℚ))] = (.ok (), hourStored) := rfl
  have hfirst : Asking.obtained ⟨⟨0, 0⟩, .inOrder, wholeHour .masked .sum⟩ quietStreet = (_, quietStreet) :=
    Asking.obtained_eq rfl (Cache.getOrCompute_of_error (Cache.load_of_missing hreadMasked) hmissing)
  have hsecond : Asking.obtained ⟨⟨1, 0⟩, .inOrder, wholeHour .unmasked .sum⟩ quietStreet = (_, hourStored) :=
    Asking.obtained_eq rfl
      (Cache.getOrCompute_of_computed (Cache.load_of_missing hread) (hcompute .sum) hsave)
  have htime : Instant.Valid ⟨1, 0⟩ := by constructor <;> decide
  refine ⟨fileWorks_of_missing hreadMasked fun _ => rfl, ?_⟩
  rw [hfirst]
  refine ⟨fileWorks_of_missing hread fun _ => rfl, ?_⟩
  rw [hsecond]
  exact ⟨fileWorks_of_save storable_zero htime hsave, trivial⟩

/-- The first query obtains the error for the missing file, the second stores zero for the hour and the
third obtains it. -/
theorem answers_eq_computed_hour :
    Compatible (streetHours [0]) hourCalls ∧ Vacant (streetHours [0]) quietStreet ∧
      FilesWork quietStreet hourCalls ∧
      answers quietStreet hourCalls =
        [.error (.fileNotFound "/data/masked_features/street/street0.csv"),
          .ok [.single (.plain 0)], .ok [.single (.plain 0)]] := by
  obtain ⟨hmissing, hcompute⟩ := wholeHour_computed
  simp only [compute_eq] at hmissing hcompute
  refine ⟨compatible_hourCalls, vacant_quietStreet, filesWork_hourCalls, ?_⟩
  rw [(answers_eq_computed compatible_hourCalls vacant_quietStreet filesWork_hourCalls).1]
  simp only [hourCalls, List.map_cons, List.map_nil, hcompute, hmissing]

end Query

end PrivateFootage
