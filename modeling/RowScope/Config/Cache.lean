import RowScope.Config.Load

/-!
# The Configuration in Use

A program loads its configuration when it is first needed and keeps it. Loading
again replaces the configuration for everyone who asks for it afterwards, but
only if it succeeds; those who hold the old one keep it. Configurations are
therefore numbered in the order in which they were loaded.

## Main definitions

* `ConfigCache`: The configuration in use, and how many were loaded.
* `ConfigCache.get`: The configuration in use, loaded if there is none.
* `ConfigCache.reload`: A new configuration.
-/

namespace RowScope

/-- A configuration with its number. -/
structure NumberedConfig where
  number : Nat
  config : Config

/-- The configuration in use, and how many were loaded so far. -/
structure ConfigCache where
  current : Option NumberedConfig
  loaded : Nat

namespace ConfigCache

/-- Nothing has been loaded. -/
def empty : ConfigCache := ⟨none, 0⟩

/-- Loads a configuration and takes it into use. -/
def reload (file : ConfigFile) (cache : ConfigCache) :
    Except ConfigFault NumberedConfig × ConfigCache :=
  match Config.load file with
  | .error f => (.error f, cache)
  | .ok config =>
    let entry : NumberedConfig := ⟨cache.loaded, config⟩
    (.ok entry, ⟨some entry, cache.loaded + 1⟩)

/-- The configuration in use; if there is none, it is loaded from `file`
first. -/
def get (file : ConfigFile) (cache : ConfigCache) :
    Except ConfigFault NumberedConfig × ConfigCache :=
  match cache.current with
  | some entry => (.ok entry, cache)
  | none => cache.reload file

end ConfigCache

end RowScope
