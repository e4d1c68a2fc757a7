import PrivateFootage.Json.Reading

/-!
# Renditions of a recording

A recorded scene exists in several renditions: as the detector saw it, with private areas masked,
and masked and cut into regions that are bounded on their own. One more rendition has a name but
no files and no rules yet.
-/

namespace PrivateFootage

/-- Which rendition of a recording a query reads. -/
inductive Rendition where
  /-- Detector output without masks. -/
  | unmasked
  /-- Masked output, cut into regions with bounds of their own. -/
  | maskedRegions
  /-- Masked output over the whole scene. -/
  | masked
  /-- A rendition with a name only. -/
  | reserved
deriving DecidableEq, Repr

namespace Rendition

/-- Every rendition. -/
def all : List Rendition :=
  [.unmasked, .maskedRegions, .masked, .reserved]

/-- The tag of a rendition in keys and messages. -/
def tag : Rendition → String
  | .unmasked => "ORIGINAL"
  | .maskedRegions => "SPATIAL_HYBRID"
  | .masked => "JUST_HYBRID"
  | .reserved => "ORIGINAL_WITH_HYBRID"

/-- The name of a rendition in documents. -/
def name : Rendition → String
  | .unmasked => "original"
  | .maskedRegions => "spatial_hybrid"
  | .masked => "just_hybrid"
  | .reserved => "original_with_hybrid"

/-- Whether a chunk of the rendition has one value for each region. -/
def isSplit : Rendition → Bool
  | .maskedRegions => true
  | .unmasked | .masked | .reserved => false

/-- The rendition with a document name. -/
def ofName? (text : String) : Option Rendition :=
  all.find? fun rendition => rendition.name = text

/-- The form in which a given name is looked up: small letters, low lines for hyphens. -/
def lookupForm (text : String) : String :=
  String.ofList ((Text.lower text.toList).map fun character =>
    if character = '-' then '_' else character)

/-- Read a rendition from JSON. -/
def ofJson? (value : Json) : Option Rendition :=
  value.choice?.bind ofName?

/-- Write a rendition as JSON. -/
def toJson (rendition : Rendition) : Json :=
  Json.ofText rendition.name

end Rendition

end PrivateFootage
