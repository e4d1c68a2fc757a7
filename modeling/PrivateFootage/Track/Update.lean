import PrivateFootage.Track.Matching

/-!
# Following objects through a chunk

In every frame the tracks age by one, detections are matched to them, and matched tracks are hit. A
track that is not matched goes if it is tentative or too old. A detection that is not matched starts
a tentative track.
-/

namespace PrivateFootage

namespace Track

variable {α : Type}

/-- The track after a hit by a detection, where counters are raised in a given way. -/
def hitWith (raise : Nat → Nat) (settings : TrackerSettings α) (detection : Detection α)
    (track : Track α) : Track α :=
  let hits := raise track.hits
  { track with
    box := detection.box
    feature := detection.feature
    hits := hits
    age := 0
    standing := if settings.hitsToConfirm ≤ hits then .confirmed else track.standing }

/-- The track after a hit by a detection. -/
def hit (settings : TrackerSettings α) (detection : Detection α) (track : Track α) : Track α :=
  track.hitWith (· + 1) settings detection

/-- Whether a track stays when it is not matched. -/
def survives (settings : TrackerSettings α) (track : Track α) : Bool :=
  track.standing = .confirmed && track.age ≤ settings.maxAge

/-- A new track. -/
def start (id : Nat) (detection : Detection α) : Track α :=
  ⟨id, detection.box, detection.feature, 1, 0, .tentative⟩

end Track

namespace Tracker

variable {α : Type} [Analytic α]

/-- What becomes of a track, given by its position, after matching. -/
def carryWith (raise : Nat → Nat) (settings : TrackerSettings α) (matched : List (Candidate α))
    (placed : Track α × Nat) : Option (Track α) :=
  match matched.find? fun candidate => candidate.track = placed.2 with
  | some candidate => some (placed.1.hitWith raise settings candidate.detection)
  | none => if placed.1.survives settings then some placed.1 else none

/-- What becomes of a track whose hits are counted without a limit. -/
def carry (settings : TrackerSettings α) (matched : List (Candidate α)) (placed : Track α × Nat) :
    Option (Track α) :=
  carryWith (· + 1) settings matched placed

/-- The detections that no track was matched to, in order. -/
def unmatched (matched : List (Candidate α)) (detections : List (Detection α)) :
    List (Detection α) :=
  (detections.zipIdx.filter fun (_, position) =>
    !matched.any fun candidate => candidate.position = position).map Prod.fst

/-- Take the detections of a frame, where counters are raised in a given way. -/
def updateWith (raise : Nat → Nat) (tracker : Tracker α) (detections : List (Detection α)) : Tracker α :=
  let matched := Candidate.matched tracker detections
  let carried := tracker.tracks.zipIdx.filterMap (carryWith raise tracker.settings matched)
  let fresh := unmatched matched detections
  let started := fresh.zipIdx.map fun (detection, offset) =>
    Track.start (tracker.nextId + offset) detection
  { tracker with
    tracks := carried ++ started
    nextId := tracker.nextId + fresh.length }

/-- Take the detections of a frame. -/
def update (tracker : Tracker α) (detections : List (Detection α)) : Tracker α :=
  tracker.updateWith (· + 1) detections

/-- Let a frame pass and take its detections. -/
def step (tracker : Tracker α) (detections : List (Detection α)) : Tracker α :=
  tracker.predict.update detections

/-- The tracker after a frame, with the sightings of all frames so far in reverse order. -/
def stepSeeing (state : Tracker α × List (List (Sighting α))) (detections : List (Detection α)) :
    Tracker α × List (List (Sighting α)) :=
  let next := state.1.step detections
  (next, next.visible :: state.2)

/-- The sightings in each frame of a sequence of detections. -/
def sightings (settings : TrackerSettings α) (frames : List (List (Detection α))) :
    List (List (Sighting α)) :=
  (frames.foldl stepSeeing (initial settings, [])).2.reverse

end Tracker

end PrivateFootage
