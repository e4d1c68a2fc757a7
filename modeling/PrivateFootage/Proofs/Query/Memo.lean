import Mathlib
import PrivateFootage.Proofs.Query.Stored

/-!
# What a query keeps over a run of calls

A query is called again and again: for its results, its windows, the longest stay or the scale of its
noise. Between two calls the stored files may change in any way, so every call comes with a store of its
own. One call fills at most one of the two things that a query keeps, and only if it was empty. So what
was obtained once is what every later call works with, and a call that fails to obtain something leaves
the query as it was.
-/

namespace PrivateFootage.Query

variable {α : Type} [Scalar α]

/-- What a query can be called for. -/
inductive Operation where
  | results
  | persistence
  | windows (afterSplit : Bool)
  | noiseScale (unit : NoiseUnit)

/-- Whether an operation needs the results of the chunks. -/
def Operation.NeedsResults : Operation → Prop
  | .results | .windows _ => True
  | .persistence | .noiseScale _ => False

/-- Whether an operation needs the longest stay. -/
def Operation.NeedsPersistence : Operation → Prop
  | .persistence | .noiseScale _ => True
  | .results | .windows _ => False

/-- One call: what for, when, and with which files in place. -/
structure Call where
  operation : Operation
  now : Instant
  store : Store

/-- What a call answers. -/
inductive Answer (α : Type) where
  | results (outcome : Outcome (List (ChunkResult α)))
  | persistence (outcome : Outcome α)
  | windows (outcome : Outcome (List α))
  | noiseScale (outcome : Outcome α)

/-- The call failed. -/
def Answer.Failed : Answer α → Prop
  | .results outcome => ∃ error, outcome = .error error
  | .persistence outcome => ∃ error, outcome = .error error
  | .windows outcome => ∃ error, outcome = .error error
  | .noiseScale outcome => ∃ error, outcome = .error error

/-- Make a call: its answer, the query after it and the files that it leaves. -/
def call (query : Query α) (call : Call) : Answer α × Query α × Store :=
  match call.operation with
  | .results =>
    let reply := query.ensureResults call.now call.store
    (.results reply.1, reply.2.1, reply.2.2)
  | .persistence =>
    let reply := query.ensurePersistence call.store
    (.persistence reply.1, reply.2, call.store)
  | .windows afterSplit =>
    let reply := query.windows call.now call.store afterSplit
    (.windows reply.1, reply.2.1, reply.2.2)
  | .noiseScale unit =>
    let reply := query.noiseScale call.store unit
    (.noiseScale reply.1, reply.2, call.store)

/-- The query after a run of calls. -/
def after (query : Query α) (calls : List Call) : Query α :=
  calls.foldl (fun query call => (query.call call).2.1) query

/-- The query with a longest stay that it has obtained. -/
def keepingStay (query : Query α) (longest : α) : Query α :=
  { query with persistence := some longest }

/-! ### One call -/

/-- What a call can do to a query: nothing, or fill one of its two empty places with what it has
obtained. -/
inductive Fills (query : Query α) (call : Call) : Query α → Prop
  | nothing : Fills query call query
  | results (results : List (ChunkResult α)) (hneeds : call.operation.NeedsResults)
      (hnone : query.results = none)
      (hobtain : (query.ensureResults call.now call.store).1 = .ok results) :
      Fills query call (query.keeping results)
  | persistence (longest : α) (hneeds : call.operation.NeedsPersistence)
      (hnone : query.persistence = none)
      (hobtain : (query.ensurePersistence call.store).1 = .ok longest) :
      Fills query call (query.keepingStay longest)

variable {query next : Query α} {made : Call} {calls : List Call} {now : Instant} {store : Store}
  {results : List (ChunkResult α)} {longest : α} {error : Error}

/-- Results that are kept are given without a look at anything else. -/
theorem ensureResults_of_kept (hkept : query.results = some results) (now : Instant) (store : Store) :
    query.ensureResults now store = (.ok results, query, store) := by
  rw [ensureResults, obtainResults, hkept]

/-- Results that are obtained are kept. -/
theorem ensureResults_keeps (hobtain : (query.ensureResults now store).1 = .ok results) :
    (query.ensureResults now store).2.1 = query.keeping results := by
  cases hkept : query.results with
  | some kept =>
    rw [ensureResults_of_kept hkept] at hobtain ⊢
    cases hobtain
    rw [keeping, ← hkept]
  | none =>
    rw [ensureResults, obtainResults, hkept] at hobtain ⊢
    dsimp only at hobtain ⊢
    cases hget : query.cache.getOrCompute now store query.key (fun _ => query.compute store) with
    | mk outcome stored =>
      rw [hget] at hobtain
      cases outcome with
      | error error => cases hobtain
      | ok obtained =>
        cases hobtain
        rfl

/-- An attempt to obtain results that fails keeps nothing. -/
theorem ensureResults_of_error (hfails : (query.ensureResults now store).1 = .error error) :
    (query.ensureResults now store).2.1 = query := by
  cases hkept : query.results with
  | some kept =>
    rw [ensureResults_of_kept hkept] at hfails
    cases hfails
  | none =>
    rw [ensureResults, obtainResults, hkept] at hfails ⊢
    dsimp only at hfails ⊢
    cases hget : query.cache.getOrCompute now store query.key (fun _ => query.compute store) with
    | mk outcome stored =>
      rw [hget] at hfails
      cases outcome with
      | error error => rfl
      | ok obtained => cases hfails

/-- A longest stay that is kept is given without a look at anything else. -/
theorem ensurePersistence_of_kept (hkept : query.persistence = some longest) (store : Store) :
    query.ensurePersistence store = (.ok longest, query) := by
  rw [ensurePersistence, hkept]

/-- A longest stay that is obtained is kept. -/
theorem ensurePersistence_keeps (hobtain : (query.ensurePersistence store).1 = .ok longest) :
    (query.ensurePersistence store).2 = query.keepingStay longest := by
  cases hkept : query.persistence with
  | some kept =>
    rw [ensurePersistence_of_kept hkept] at hobtain ⊢
    cases hobtain
    rw [keepingStay, ← hkept]
  | none =>
    rw [ensurePersistence, hkept] at hobtain ⊢
    dsimp only at hobtain ⊢
    split at hobtain
    · cases hobtain
      rfl
    · cases hobtain

/-- An attempt to obtain the longest stay that fails keeps nothing. -/
theorem ensurePersistence_of_error (hfails : (query.ensurePersistence store).1 = .error error) :
    (query.ensurePersistence store).2 = query := by
  cases hkept : query.persistence with
  | some kept =>
    rw [ensurePersistence_of_kept hkept] at hfails
    cases hfails
  | none =>
    rw [ensurePersistence, hkept] at hfails ⊢
    dsimp only at hfails ⊢
    split at hfails
    · cases hfails
    · rfl

/-- Windows keep what obtaining their results keeps. -/
theorem windows_next (query : Query α) (now : Instant) (store : Store) (afterSplit : Bool) :
    (query.windows now store afterSplit).2.1 = (query.ensureResults now store).2.1 := by
  rw [windows]
  rcases query.ensureResults now store with ⟨_ | _, next, stored⟩ <;> rfl

/-- The scale of the noise keeps what obtaining the longest stay keeps. -/
theorem noiseScale_next (query : Query α) (store : Store) (unit : NoiseUnit) :
    (query.noiseScale store unit).2 = (query.ensurePersistence store).2 := by
  rw [noiseScale]
  rcases query.ensurePersistence store with ⟨_ | _, next⟩ <;> rfl

/-- A call that needs results keeps what obtaining them keeps. -/
theorem call_next_of_needsResults (hneeds : made.operation.NeedsResults) :
    (query.call made).2.1 = (query.ensureResults made.now made.store).2.1 := by
  unfold call
  cases hoperation : made.operation with
  | results => rfl
  | windows afterSplit => exact query.windows_next made.now made.store afterSplit
  | persistence | noiseScale unit =>
    rw [hoperation] at hneeds
    exact hneeds.elim

/-- A call that needs the longest stay keeps what obtaining it keeps. -/
theorem call_next_of_needsPersistence (hneeds : made.operation.NeedsPersistence) :
    (query.call made).2.1 = (query.ensurePersistence made.store).2 := by
  unfold call
  cases hoperation : made.operation with
  | persistence => rfl
  | noiseScale unit => exact query.noiseScale_next made.store unit
  | results | windows afterSplit =>
    rw [hoperation] at hneeds
    exact hneeds.elim

/-- Every operation needs one of the two. -/
theorem Operation.needs (operation : Operation) :
    operation.NeedsResults ∨ operation.NeedsPersistence := by
  cases operation with
  | results | windows _ => exact .inl trivial
  | persistence | noiseScale _ => exact .inr trivial

/-- A call fills at most one empty place. -/
theorem call_fills (query : Query α) (made : Call) : Fills query made (query.call made).2.1 := by
  rcases made.operation.needs with hneeds | hneeds
  · rw [call_next_of_needsResults hneeds]
    cases hobtain : (query.ensureResults made.now made.store).1 with
    | error error =>
      rw [ensureResults_of_error hobtain]
      exact .nothing
    | ok results =>
      cases hkept : query.results with
      | some kept =>
        rw [ensureResults_of_kept hkept]
        exact .nothing
      | none =>
        rw [ensureResults_keeps hobtain]
        exact .results results hneeds hkept hobtain
  · rw [call_next_of_needsPersistence hneeds]
    cases hobtain : (query.ensurePersistence made.store).1 with
    | error error =>
      rw [ensurePersistence_of_error hobtain]
      exact .nothing
    | ok longest =>
      cases hkept : query.persistence with
      | some kept =>
        rw [ensurePersistence_of_kept hkept]
        exact .nothing
      | none =>
        rw [ensurePersistence_keeps hobtain]
        exact .persistence longest hneeds hkept hobtain

/-- What is kept is neither cleared nor changed, and the rest of the query stays as it is. -/
structure Extends (query next : Query α) : Prop where
  spec_eq : next.spec = query.spec
  chunkCount_eq : next.chunkCount = query.chunkCount
  results_eq : ∀ results, query.results = some results → next.results = some results
  persistence_eq : ∀ longest, query.persistence = some longest → next.persistence = some longest

omit [Scalar α] in
/-- A query keeps what it keeps. -/
theorem Extends.refl (query : Query α) : Extends query query :=
  ⟨rfl, rfl, fun _ => id, fun _ => id⟩

omit [Scalar α] in
/-- What is kept over two steps is kept over both together. -/
theorem Extends.trans {first second third : Query α} (hfirst : Extends first second)
    (hsecond : Extends second third) : Extends first third where
  spec_eq := hsecond.spec_eq.trans hfirst.spec_eq
  chunkCount_eq := hsecond.chunkCount_eq.trans hfirst.chunkCount_eq
  results_eq results hkept := hsecond.results_eq results (hfirst.results_eq results hkept)
  persistence_eq longest hkept := hsecond.persistence_eq longest (hfirst.persistence_eq longest hkept)

/-- One call extends what is kept. -/
theorem Fills.extends (hfills : Fills query made next) : Extends query next := by
  cases hfills with
  | nothing => exact .refl query
  | results results hneeds hnone hobtain =>
    refine ⟨rfl, rfl, fun kept hkept => ?_, fun _ => id⟩
    rw [hnone] at hkept
    cases hkept
  | persistence longest hneeds hnone hobtain =>
    refine ⟨rfl, rfl, fun _ => id, fun kept hkept => ?_⟩
    rw [hnone] at hkept
    cases hkept

/-! ### Runs of calls -/

/-- A run goes on from where its first calls lead. -/
theorem after_append (query : Query α) (first second : List Call) :
    query.after (first ++ second) = (query.after first).after second :=
  List.foldl_append ..

/-- A run of calls extends what is kept. -/
theorem extends_after (query : Query α) (calls : List Call) : Extends query (query.after calls) := by
  induction calls generalizing query with
  | nil => exact .refl query
  | cons made calls ih => exact (query.call_fills made).extends.trans (ih _)

/-- What it means that a query relies on results that it keeps: it gives and windows these, whatever the
time, the files and even the aggregator. -/
structure ReliesOnResults (query : Query α) (spec : QuerySpec α) (chunkCount : ℕ)
    (results : List (ChunkResult α)) : Prop where
  kept : query.results = some results
  results_eq : ∀ now store, query.ensureResults now store = (.ok results, query, store)
  windows_eq : ∀ now store afterSplit, query.windows now store afterSplit =
    (if results.length < chunkCount then
        .error (.data (.missingResults chunkCount spec.video results.length))
      else spec.windowing.aggregate (results.take chunkCount) afterSplit, query, store)
  results_same : ∀ aggregator now store,
    ({ query with aggregator } : Query α).ensureResults now store = (.ok results, { query with aggregator }, store)
  windows_same : ∀ aggregator now store afterSplit,
    (({ query with aggregator } : Query α).windows now store afterSplit).1 =
      (query.windows now store afterSplit).1

/-- What it means that a query relies on a longest stay that it keeps. -/
structure ReliesOnPersistence (query : Query α) (spec : QuerySpec α) (longest : α) : Prop where
  kept : query.persistence = some longest
  persistence_eq : ∀ store, query.ensurePersistence store = (.ok longest, query)
  noiseScale_eq : ∀ store unit, query.noiseScale store unit = (spec.noiseScale longest unit, query)

/-- A query relies on the results that it keeps. -/
theorem reliesOnResults (hkept : query.results = some results) :
    query.ReliesOnResults query.spec query.chunkCount results := by
  have hsame : ∀ aggregator now store, ({ query with aggregator } : Query α).ensureResults now store =
      (.ok results, { query with aggregator }, store) := by
    intro aggregator
    apply ensureResults_of_kept
    exact hkept
  refine ⟨hkept, ensureResults_of_kept hkept, fun now store afterSplit => ?_, hsame,
    fun aggregator now store afterSplit => ?_⟩
  · rw [windows, ensureResults_of_kept hkept]
    rfl
  · rw [windows, windows, ensureResults_of_kept hkept, hsame]
    rfl

/-- A query relies on the longest stay that it keeps. -/
theorem reliesOnPersistence (hkept : query.persistence = some longest) :
    query.ReliesOnPersistence query.spec longest where
  kept := hkept
  persistence_eq := ensurePersistence_of_kept hkept
  noiseScale_eq store unit := by
    rw [noiseScale, ensurePersistence_of_kept hkept]

/-- A call for results or for the longest stay that fails leaves the query as it was. -/
theorem call_of_failed (hoperation : made.operation = .results ∨ made.operation = .persistence)
    (hfailed : (query.call made).1.Failed) : (query.call made).2.1 = query := by
  rcases hoperation with hoperation | hoperation
  · rw [call_next_of_needsResults (by rw [hoperation]; trivial)]
    rw [call, hoperation] at hfailed
    obtain ⟨error, hfails⟩ := hfailed
    exact ensureResults_of_error hfails
  · rw [call_next_of_needsPersistence (by rw [hoperation]; trivial)]
    rw [call, hoperation] at hfailed
    obtain ⟨error, hfails⟩ := hfailed
    exact ensurePersistence_of_error hfails

variable {config : Config} {spec : QuerySpec α} {aggregator : Aggregator α}

/-- What an accepted query keeps over any run of calls with any files in place at each of them. Once a
call has obtained results, every later query of the run relies on them, and so for the longest stay. A
call changes nothing that is kept, and fills at most one empty place, with what it has obtained. A call
for results or for the longest stay that fails is as if it had not been made. -/
theorem memo_of_run (hquery : ofSpec config spec aggregator = .ok query) (before : List Call)
    (made : Call) :
    (∃ chunkCount, spec.plan config = .ok chunkCount ∧
      ∀ results, made.operation.NeedsResults →
        ((query.after before).ensureResults made.now made.store).1 = .ok results →
          ∀ later, (query.after (before ++ made :: later)).ReliesOnResults spec chunkCount results) ∧
    (∀ longest, made.operation.NeedsPersistence →
      ((query.after before).ensurePersistence made.store).1 = .ok longest →
        ∀ later, (query.after (before ++ made :: later)).ReliesOnPersistence spec longest) ∧
    Extends (query.after before) ((query.after before).call made).2.1 ∧
    Fills (query.after before) made ((query.after before).call made).2.1 ∧
    (made.operation = .results ∨ made.operation = .persistence →
      ((query.after before).call made).1.Failed →
        ((query.after before).call made).2.1 = query.after before ∧
        ∀ later, query.after (before ++ made :: later) = query.after (before ++ later)) := by
  obtain ⟨chunkCount, hplan, rfl⟩ := ofSpec_eq_ok_iff.mp hquery
  set query : Query α := ⟨spec, aggregator, config, chunkCount, none, none⟩
  have hlater : ∀ later, query.after (before ++ made :: later) =
      ((query.after before).call made).2.1.after later := fun later => query.after_append before _
  have hstays : ∀ calls, (query.after calls).spec = spec ∧ (query.after calls).chunkCount = chunkCount :=
    fun calls => ⟨(query.extends_after calls).spec_eq, (query.extends_after calls).chunkCount_eq⟩
  have hfills := (query.after before).call_fills made
  refine ⟨⟨chunkCount, hplan, fun results hneeds hobtain later => ?_⟩,
    fun longest hneeds hobtain later => ?_, hfills.extends, hfills, fun hoperation hfailed => ?_⟩
  · obtain ⟨hspec, hcount⟩ := hstays (before ++ made :: later)
    have hkept : (query.after (before ++ made :: later)).results = some results := by
      rw [hlater]
      apply (extends_after _ later).results_eq
      rw [call_next_of_needsResults hneeds, ensureResults_keeps hobtain]
      rfl
    simpa only [hspec, hcount] using reliesOnResults hkept
  · obtain ⟨hspec, -⟩ := hstays (before ++ made :: later)
    have hkept : (query.after (before ++ made :: later)).persistence = some longest := by
      rw [hlater]
      apply (extends_after _ later).persistence_eq
      rw [call_next_of_needsPersistence hneeds, ensurePersistence_keeps hobtain]
      rfl
    simpa only [hspec] using reliesOnPersistence hkept
  · have hsame := call_of_failed hoperation hfailed
    refine ⟨hsame, fun later => ?_⟩
    rw [hlater, hsame, after_append]

/-- A call for the results of the hour before its footage is in place. -/
def earlyCall : Call := ⟨.results, ⟨0, 0⟩, .empty⟩

/-- A call for the windows of the hour with its footage in place. -/
def laterCall : Call := ⟨.windows true, ⟨1, 0⟩, quietStreet⟩

/-- The early call fails and changes nothing, the later one obtains the result of the hour, and whatever
is called afterwards relies on it. -/
theorem memo_of_run_street :
    ofSpec (streetHours [0]) (wholeHour .unmasked .sum).spec (.zero ℚ) = .ok (wholeHour .unmasked .sum) ∧
    ((wholeHour .unmasked .sum).call earlyCall).1.Failed ∧
    (wholeHour .unmasked .sum).after [earlyCall] = wholeHour .unmasked .sum ∧
    (((wholeHour .unmasked .sum).after [earlyCall]).ensureResults laterCall.now laterCall.store).1 =
      .ok [.single (.plain 0)] ∧
    ∀ later, ∃ chunkCount, ((wholeHour .unmasked .sum).after (earlyCall :: laterCall :: later)).ReliesOnResults
      (wholeHour .unmasked .sum).spec chunkCount [.single (.plain 0)] := by
  have hquery : ofSpec (streetHours [0]) (wholeHour .unmasked .sum).spec (.zero ℚ) =
      .ok (wholeHour .unmasked .sum) := rfl
  have hmissing : Store.empty.readText ((wholeHour .unmasked .sum).cache.path
      (wholeHour .unmasked .sum).key) = .error .missing := rfl
  have hcompute : (wholeHour .unmasked .sum).compute .empty =
      .error (.fileNotFound "/data/features/street/street0.csv") := rfl
  have hfails : ((wholeHour .unmasked .sum).ensureResults earlyCall.now earlyCall.store).1 =
      .error (.fileNotFound "/data/features/street/street0.csv") :=
    (obtainResults_eq rfl (Cache.getOrCompute_of_error (Cache.load_of_missing hmissing) hcompute)).1
  have hfailed : ((wholeHour .unmasked .sum).call earlyCall).1.Failed := by
    rw [call]
    exact ⟨_, hfails⟩
  obtain ⟨-, -, -, -, hretry⟩ := memo_of_run hquery [] earlyCall
  have hsame : (wholeHour .unmasked .sum).after [earlyCall] = wholeHour .unmasked .sum :=
    (hretry (.inl rfl) hfailed).2 []
  have hread : quietStreet.readText ((wholeHour .unmasked .sum).cache.path
      (wholeHour .unmasked .sum).key) = .error .missing := rfl
  have hobtain : (((wholeHour .unmasked .sum).after [earlyCall]).ensureResults laterCall.now
      laterCall.store).1 = .ok [.single (.plain 0)] := by
    rw [hsame]
    have hfresh : (wholeHour .unmasked .sum).ensureResults ⟨1, 0⟩ quietStreet = (.ok [.single (.plain 0)],
        (wholeHour .unmasked .sum).keeping [.single (.plain 0)], hourStored) :=
      ensureResults_fresh rfl (wholeHour_computed.2 .sum) (Cache.load_of_missing hread) rfl
    exact congrArg Prod.fst hfresh
  obtain ⟨⟨chunkCount, -, hrelies⟩, -⟩ := memo_of_run hquery [earlyCall] laterCall
  exact ⟨hquery, hfailed, hsame, hobtain,
    fun later => ⟨chunkCount, hrelies [.single (.plain 0)] trivial hobtain later⟩⟩

end PrivateFootage.Query
