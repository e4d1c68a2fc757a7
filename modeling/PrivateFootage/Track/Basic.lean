import PrivateFootage.Detection.Row

/-!
# Tracks

A tracker follows objects from frame to frame. Every object it follows is a track: the box and
feature of its last detection, how often it was hit, how many frames ago it was last hit, and
whether it is confirmed.
-/

namespace PrivateFootage

/-- The settings of a tracker. -/
structure TrackerSettings (α : Type) where
  /-- Features farther apart than this never match. -/
  maxFeatureDistance : α
  /-- Boxes that overlap less than one less this never match. -/
  maxBoxDistance : α
  /-- How many frames a confirmed track survives without a match. -/
  maxAge : Nat
  /-- How many hits confirm a track. -/
  hitsToConfirm : Nat
deriving DecidableEq, Repr

/-- Whether a track has been hit often enough to count. -/
inductive Standing where
  | tentative
  | confirmed
deriving DecidableEq, Repr

/-- An object that is being followed. The hits and the age are counted without a limit. Counters of 32 bits
show the same in every run of fewer than `2 ^ 32` calls. -/
structure Track (α : Type) where
  id : Nat
  box : Box α
  feature : List α
  hits : Nat
  /-- Frames since the last hit. -/
  age : Nat
  standing : Standing
deriving DecidableEq, Repr

/-- The tracks being followed, oldest first, and the number of the next one. -/
structure Tracker (α : Type) where
  settings : TrackerSettings α
  tracks : List (Track α)
  nextId : Nat
deriving DecidableEq, Repr

/-- A confirmed track that was hit in the current frame. -/
structure Sighting (α : Type) where
  id : Nat
  box : Box α
deriving DecidableEq, Repr

namespace TrackerSettings

/-- The settings used unless others are given. -/
def standard : TrackerSettings Float := ⟨0.5, 0.7, 96, 9⟩

variable {α : Type} [Scalar α]

/-- The text of tracker settings in descriptors. -/
def descriptor (settings : TrackerSettings α) : String :=
  let feature := Scalar.fixedText 2 settings.maxFeatureDistance
  let box := Scalar.fixedText 2 settings.maxBoxDistance
  s!"CO:{feature}_IO:{box}_MA:{settings.maxAge}_NI:{settings.hitsToConfirm}"

end TrackerSettings

namespace Tracker

variable {α : Type}

/-- A tracker that follows nothing yet. -/
def initial (settings : TrackerSettings α) : Tracker α :=
  ⟨settings, [], 1⟩

/-- Let one frame pass, where counters are raised in a given way. -/
def predictWith (raise : Nat → Nat) (tracker : Tracker α) : Tracker α :=
  { tracker with tracks := tracker.tracks.map fun track => { track with age := raise track.age } }

/-- Let one frame pass. -/
def predict (tracker : Tracker α) : Tracker α := tracker.predictWith (· + 1)

/-- The confirmed tracks that were hit in the current frame. -/
def visible (tracker : Tracker α) : List (Sighting α) :=
  (tracker.tracks.filter fun track => track.standing = .confirmed ∧ track.age = 0).map
    fun track => ⟨track.id, track.box⟩

end Tracker

end PrivateFootage
