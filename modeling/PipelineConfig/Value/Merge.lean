import PipelineConfig.Value.Basic

/-!
# Merging mappings

Layers of configuration are laid over each other by `Mapping.merge`: where both layers hold a
mapping the two are merged in turn, everywhere else the upper layer wins, also when its value is
null. `Mapping.keep` is the filter a source passes on its way in, and `Mapping.mixIn` the two
together.
-/

namespace PipelineConfig

mutual

/-- Lay one value over another. -/
def Value.merge : Value → Value → Value
  | .mapping base, .mapping overlay => .mapping (mergeEntries base overlay)
  | _, overlay => overlay
termination_by structural _ overlay => overlay

/-- Lay the entries of one mapping over another. -/
def mergeEntries (base : List (String × Value)) :
    List (String × Value) → List (String × Value)
  | [] => base
  | (key, v) :: rest =>
    Assoc.insert (mergeEntries base rest) key
      (match Assoc.get? base key with
        | some below => Value.merge below v
        | none => v)
termination_by structural overlay => overlay

end

namespace Mapping

/-- Lay a mapping over another one. -/
def merge (base overlay : Mapping) : Mapping :=
  mergeEntries base overlay

/-- Whether a list of allowed names admits a key; an empty list admits every key. -/
def admits (allow : List String) (key : String) : Bool :=
  allow.isEmpty || allow.contains key

/-- The entries whose keys a list of allowed names admits. -/
def keep (m : Mapping) (allow : List String) : Mapping :=
  m.filter (fun e => admits allow e.1)

/-- Lay the admitted entries of a source over a target. -/
def mixIn (target source : Mapping) (allow : List String) : Mapping :=
  merge target (keep source allow)

end Mapping

end PipelineConfig
