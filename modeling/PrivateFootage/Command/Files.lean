import PrivateFootage.Command.Execute

/-!
# Files a command line reads

The files whose content can decide what a command line does. A program that holds its files in a
store takes these into it before it starts, and afterwards writes back what has changed.
-/

namespace PrivateFootage.Command

/-- The configuration files an invocation may read. -/
def Invocation.configFiles (invocation : Invocation) (environment : Environment) : List String :=
  invocation.configPath.toList ++ [environment.configPath]

/-- The detection files of a query. -/
def hourFiles (query : Query Float) : List String :=
  let footage := Footage.ofConfig query.config query.spec.video query.spec.rendition
    query.spec.framesPerChunk
  let regions := match query.spec.rendition.isSplit, query.spec.privacy with
    | true, some privacy => (List.range (privacy.splitCount.getD 0)).map some
    | _, _ => [none]
  match footage with
  | .error _ => []
  | .ok footage =>
    footage.hours.flatMap fun hour =>
      regions.filterMap fun region => (footage.hourPath hour region).toOption

/-- The data files a query may read. -/
def queryFiles (query : Query Float) : List String :=
  let persistence := persistencePath query.config query.spec.video query.spec.rendition
  query.cache.path query.key :: persistence.toOption.toList ++ hourFiles query

/-- The data files an invocation may read under a configuration. -/
def Invocation.dataFiles (invocation : Invocation) (config : Config) : List String :=
  match invocation.task with
  | .run arguments =>
    match arguments.query config with
    | .ok query => queryFiles query
    | .error _ => []
  | .noise _ | .frames _ _ _ | .config _ => []

end PrivateFootage.Command
