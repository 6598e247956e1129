import CephGeoRep.Data.Config

/-!
# The syncer

`Syncer` is built once from the configuration and lives as long as the daemon:
its memory limit shrinks with every headroom round and its destination iterator
moves with every failover. `Destinations` carries what the constructor
guarantees about the destination list, on which `change_destination` relies.
-/

namespace CephGeoRep

/-- One element of an argument vector; `none` is the terminating `NULL`. -/
abbrev Arg := Option CString

/-- Reduction to `size_t`. -/
def sizeT (value : Nat) : Nat := value % 2 ^ 64

/-- Conversion of a `size_t` to `int`. -/
def toInt32 (value : Nat) : Int := (value : Int).bmod (2 ^ 32)

/-- `sizeof(char *)`. -/
def sizeofPtr : Nat := 8

/-- `MEM_LIM_HEADROOM`. -/
@[irreducible]
def memLimHeadroom : Nat := 2048

/-- `_POSIX_ARG_MAX`. -/
def posixArgMax : Int := 4096

/-- `destinations_` with the iterator `destination_`. Either the list has one
element, which may be empty, or no element is empty. -/
structure Destinations where
  names : List CString
  current : Nat
  current_lt : current < names.length
  shape : names.length = 1 ∨ [] ∉ names

namespace Destinations

/-- `*destination_`. -/
def star (destinations : Destinations) : CString :=
  destinations.names.get ⟨destinations.current, destinations.current_lt⟩

/-- `++destination_`, going back to the first destination at the end. -/
def advance (destinations : Destinations) : Destinations :=
  if inside : destinations.current + 1 < destinations.names.length then
    { destinations with current := destinations.current + 1, current_lt := inside }
  else
    { destinations with
      current := 0, current_lt := Nat.zero_lt_of_lt destinations.current_lt }

/-- The destination loop of the constructor: empty tokens are skipped, and the
deprecated remote fields are used when nothing is left. -/
def ofTokens (tokens : List CString) (fallback : CString) : Destinations :=
  match kept : tokens.filter fun token => !token.isEmpty with
  | [] => { names := [fallback], current := 0, current_lt := by simp, shape := .inl rfl }
  | first :: rest =>
    { names := first :: rest, current := 0, current_lt := by simp
      shape := .inr <| by
        rw [← kept]
        simp }

@[simp]
theorem advance_names (destinations : Destinations) :
    destinations.advance.names = destinations.names := by
  rw [advance]
  split <;> rfl

theorem star_mem (destinations : Destinations) :
    destinations.star ∈ destinations.names :=
  List.get_mem _ _

/-- An empty destination is the only one, so a failover stays on it. -/
theorem advance_star_of_nil {destinations : Destinations} (empty : destinations.star = []) :
    destinations.advance = destinations := by
  have single : destinations.names.length = 1 := by
    rcases destinations.shape with single | nonempty
    · exact single
    · exact absurd (empty ▸ destinations.star_mem) nonempty
  obtain ⟨names, current, current_lt, shape⟩ := destinations
  simp only at single
  have first : current = 0 := by omega
  subst first
  simp [advance, single]

/-- A failover from a destination that is not empty leads to one that is not. -/
theorem advance_star_ne_nil {destinations : Destinations}
    (nonempty : destinations.star ≠ []) : destinations.advance.star ≠ [] := by
  rcases destinations.shape with single | noEmpty
  · have same : destinations.advance = destinations := by
      obtain ⟨names, current, current_lt, shape⟩ := destinations
      simp only at single
      have first : current = 0 := by omega
      subst first
      simp [advance, single]
    rwa [same]
  · intro empty
    apply noEmpty
    rw [← destinations.advance_names, ← empty]
    exact destinations.advance.star_mem

end Destinations

/-- `class Syncer`. The arguments of `exec_flags_` are kept in `garbage_`. -/
structure Syncer where
  nproc : Int
  maxMemUsage : Nat
  startMemUsage : Nat
  execBin : CString
  destinations : Destinations
  startPayload : List Arg
  garbage : List CString

namespace Syncer

/-- `Syncer::construct_destination`. -/
def constructDestination (remoteUser remoteHost remoteDirectory : CString) : CString :=
  if remoteHost.isEmpty then remoteDirectory
  else
    let dest := remoteHost ++ [':'] ++ remoteDirectory
    if remoteUser.isEmpty then dest else remoteUser ++ ['@'] ++ dest

/-- `Syncer::get_mem_limit`: `sysconf` answers -1 when it cannot tell, and the
difference is taken in `size_t`. -/
def getMemLimit (argMax : Int) (envpSize : Nat) : Nat :=
  let argMax := if argMax = -1 then posixArgMax else argMax
  ((argMax - envpSize - memLimHeadroom) % (2 ^ 64 : Int)).toNat

/-- What one argument adds to the accounted memory. -/
def argMem (length : Nat) : Nat := length + 1 + sizeofPtr

/-- The longest destination, measured with the `int` of the source. -/
def maxDestinationLen (names : List CString) : Int :=
  names.foldl (fun longest dest => max longest (toInt32 dest.length)) 0

/-- `Syncer::Syncer`. The argument `tokenize` stands for
`boost::tokenizer` with `escaped_list_separator`, given the separators and the
text. -/
def new (tokenize : CString → CString → List CString) (argMax : Int) (envpSize : Nat)
    (config : Config) : Syncer :=
  let flags := tokenize " ".toList config.execFlags
  let destinations := Destinations.ofTokens (tokenize ", ".toList config.destinations)
    (constructDestination config.remoteUser config.remoteHost config.remoteDirectory)
  { nproc := config.nproc
    maxMemUsage := getMemLimit argMax envpSize
    startMemUsage := sizeT (argMem config.execBin.length
      + (flags.map fun flag => argMem flag.length).sum
      + argMem (maxDestinationLen destinations.names).toNat + sizeofPtr)
    execBin := config.execBin
    destinations := destinations
    startPayload := some config.execBin :: flags.map some
    garbage := flags }

/-- The number of processes `launch_procs` creates. -/
def launchCount (nproc : Int) (queueSize : Nat) : Nat :=
  (max (min nproc (toInt32 queueSize)) 1).toNat

theorem launchCount_pos (nproc : Int) (queueSize : Nat) : 0 < launchCount nproc queueSize := by
  rw [launchCount]
  omega

/-- No more processes than files, but at least one. -/
theorem launchCount_le (nproc : Int) (queueSize : Nat) :
    launchCount nproc queueSize ≤ max queueSize 1 := by
  have small : toInt32 queueSize ≤ queueSize := by
    unfold toInt32
    rw [Int.bmod_def]
    split <;> omega
  unfold launchCount
  omega

end Syncer

end CephGeoRep
