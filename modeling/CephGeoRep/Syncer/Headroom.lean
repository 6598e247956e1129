import CephGeoRep.Data.Numeral
import CephGeoRep.Semantics.Observer
import CephGeoRep.Syncer.Batches

/-!
# The headroom of the memory limit

`get_mem_limit` subtracts the environment and the headroom in `size_t`, and `sync`
subtracts another headroom after every round in which an argument vector was too long.
The second subtraction is guarded and the first one is not, so the limit is a
difference of integers in all states of a run or in none of them.
-/

namespace CephGeoRep

open Semantics

/-- `get_env_size`. -/
def getEnvSize (envp : List CString) : Nat :=
  sizeT ((envp.map fun entry => Syncer.argMem entry.length).sum + sizeofPtr)

/-- `arg_max` in `get_mem_limit`, behind the fallback. -/
def Syncer.knownArgMax (argMax : Int) : Int := if argMax = -1 then posixArgMax else argMax

/-- Counts the rounds that ended with `INC_HEADROOM` and that `sync` has looked at. -/
def headroomRounds : Observer State Choice Nat Empty where
  start _ := 0
  note state choice _ rounds :=
    match choice with
    | .afterRound => if state.control = .returned .incHeadroom then rounds + 1 else rounds
    | _ => rounds
  see _ event _ := event.elim

namespace State

/-- The limit is what is left of `room` after so many rounds, for the syncer and for its
processes. -/
structure Limited (room : Int) (state : State) (rounds : Nat) : Prop where
  exact : (state.syncer.maxMemUsage : Int) = room - (rounds + 1) * memLimHeadroom
  positive : 0 < state.syncer.maxMemUsage
  procs : ∀ process ∈ state.procs, process.maxMemUsage = state.syncer.maxMemUsage

variable {capacity : Nat} {state next : State} {choice : Choice} {room : Int} {rounds : Nat}

/-- A process keeps the limit it was constructed with. -/
theorem maxMemUsage_of_origin {process : SyncProcess} (origin : ProcOrigin state next process) :
    process.maxMemUsage = next.syncer.maxMemUsage ∨
      ∃ old ∈ state.procs, process.maxMemUsage = old.maxMemUsage := by
  have consumes : ∀ process : SyncProcess,
      (process.consume state.queue state.destination).maxMemUsage = process.maxMemUsage := by
    intro process
    obtain ⟨filled, count, fills, equal⟩ := process.consume_fills state.queue state.destination
    rw [equal]
    exact fills.maxMemUsage
  cases origin with
  | fresh => exact .inl rfl
  | kept _ member => exact .inr ⟨_, member, rfl⟩
  | launched _ member => exact .inr ⟨_, member, consumes _⟩
  | relaunched _ member => exact .inr ⟨_, member, rfl⟩
  | refilled _ member => exact .inr ⟨_, member, consumes _⟩
  | @redirected process _ member =>
      refine .inr ⟨_, member, ?_⟩
      show (process.changeDestination state.destination).maxMemUsage = process.maxMemUsage
      rw [SyncProcess.changeDestination]
      split <;> rfl

/-- Only a new round changes the limit, and it is counted. -/
theorem maxMemUsage_of_move (move : Move capacity state choice next)
    (goesOn : next.control ≠ .exited) (rounds : Nat) :
    headroomRounds.note state choice next rounds = rounds ∧
        next.syncer.maxMemUsage = state.syncer.maxMemUsage ∨
      headroomRounds.note state choice next rounds = rounds + 1 ∧
        memLimHeadroom * 2 < state.syncer.maxMemUsage ∧
        next.syncer.maxMemUsage = state.syncer.maxMemUsage - memLimHeadroom ∧
        ∀ process ∈ next.procs, process.maxMemUsage = next.syncer.maxMemUsage := by
  cases move with
  | newRound returned room =>
      refine .inr ⟨if_pos returned, room, rfl, fun process member => ?_⟩
      simp only [launchProcs, startRound, List.mem_map] at member
      obtain ⟨id, _, rfl⟩ := member
      rfl
  | success returned => exact .inl ⟨if_neg (by simp [returned]), rfl⟩
  | failure => exact absurd rfl goesOn
  | returned _ _ _ _ handled => exact .inl ⟨rfl, by cases handled <;> rfl⟩
  | _ => exact .inl ⟨rfl, rfl⟩

/-- Once the process has ended it stays so. -/
theorem exited_of_step (exited : state.control = .exited)
    (taken : state.step capacity choice = some next) : next.control = .exited := by
  cases moves_of_step taken <;> simp_all

/-- Every step keeps the limit a difference of integers. -/
theorem Limited.of_step (limited : state.Limited room rounds)
    (taken : state.step capacity choice = some next) (goesOn : next.control ≠ .exited) :
    next.Limited room (headroomRounds.note state choice next rounds) := by
  have move := moves_of_step taken
  rcases maxMemUsage_of_move move goesOn rounds with ⟨counted, same⟩ | ⟨counted, wide, lower, fresh⟩
  · rw [counted]
    refine ⟨by rw [same]; exact limited.exact, by rw [same]; exact limited.positive, ?_⟩
    intro process member
    rcases maxMemUsage_of_origin (procOrigin_of_move move member) with equal | ⟨old, listed, equal⟩
    · exact equal
    · rw [equal, same]
      exact limited.procs old listed
  · have exact := limited.exact
    rw [counted]
    refine ⟨?_, by omega, fresh⟩
    rw [lower, Nat.cast_sub (by omega), exact]
    push_cast
    ring

end State

/-! ## All runs -/

/-- Unless the process has ended with a failure, its limit is what is left of `room`. -/
def LimitedUntilExit (room : Int) (both : Observed State Nat) : Prop :=
  both.state.control ≠ .exited → both.state.Limited room both.record

/-- In every run the limit is what is left of `ARG_MAX` over the integers, or the process
has ended with a failure. -/
def NeverWraps (capacity : Nat) (tokenize : CString → CString → List CString) (argMax : Int)
    (envpSize : Nat) (config : Config) : Prop :=
  ∀ choices both,
    (headroomRounds.watch (syncMachine capacity)).Steps Machine.unguarded
      ⟨.start (Syncer.new tokenize argMax envpSize config), 0⟩ choices both →
    LimitedUntilExit (Syncer.knownArgMax argMax - envpSize) both

variable {capacity : Nat} {tokenize : CString → CString → List CString} {argMax : Int}
  {envpSize : Nat} {config : Config}

/-- Where the environment and the headroom fit, the subtraction does not wrap. -/
theorem Syncer.getMemLimit_of_lt (long : IsInt64 argMax)
    (fits : envpSize + memLimHeadroom < knownArgMax argMax) :
    (getMemLimit argMax envpSize : Int) = knownArgMax argMax - envpSize - memLimHeadroom := by
  have upper : knownArgMax argMax < 2 ^ 63 := by
    rw [knownArgMax, posixArgMax]
    split
    · omega
    · exact long.2
  show (((knownArgMax argMax - envpSize - memLimHeadroom) % (2 ^ 64 : Int)).toNat : Int) = _
  rw [Int.emod_eq_of_lt (by omega) (by omega), Int.toNat_of_nonneg (by omega)]

theorem limited_start (long : IsInt64 argMax)
    (fits : envpSize + memLimHeadroom < Syncer.knownArgMax argMax) :
    (State.start (Syncer.new tokenize argMax envpSize config)).Limited
      (Syncer.knownArgMax argMax - envpSize) 0 := by
  have exact : ((Syncer.new tokenize argMax envpSize config).maxMemUsage : Int) = _ :=
    Syncer.getMemLimit_of_lt long fits
  refine ⟨?_, ?_, fun process member => by cases member⟩
  · show ((Syncer.new tokenize argMax envpSize config).maxMemUsage : Int) = _
    rw [exact]
    push_cast
    ring
  · show 0 < (Syncer.new tokenize argMax envpSize config).maxMemUsage
    omega

/-- The limit never wraps, in any round of any call, exactly when the environment and one
headroom leave room below `ARG_MAX`. -/
theorem neverWraps_iff (long : IsInt64 argMax) :
    NeverWraps capacity tokenize argMax envpSize config ↔
      envpSize + memLimHeadroom < Syncer.knownArgMax argMax := by
  constructor
  · intro never
    have limited : (State.start (Syncer.new tokenize argMax envpSize config)).Limited
        (Syncer.knownArgMax argMax - envpSize) 0 :=
      never [] _ .refl (by simp [State.start])
    have exact := limited.exact
    have positive := limited.positive
    simp only [Nat.cast_zero, zero_add, one_mul] at exact
    omega
  · intro fits choices both steps
    refine steps.preserves ?_ fun _ => limited_start long fits
    rintro both choice next limited - taken goesOn
    cases choice with
    | inl choice =>
        obtain ⟨stepped, noted⟩ := Observer.step_inl taken
        rw [noted]
        refine (limited fun exited => goesOn ?_).of_step stepped goesOn
        exact State.exited_of_step exited stepped
    | inr event => exact event.elim

/-- A syncer that sends to one destination with `rsync -a`. -/
def oneDestination : Config :=
  { nproc := 1, execBin := "rsync".toList, execFlags := "-a".toList,
    destinations := "backup:/tank".toList }

theorem neverWraps_of_roomy : NeverWraps 4 plainTokens 2097152 1024 oneDestination := by
  refine (neverWraps_iff (by decide)).mpr ?_
  rw [memLimHeadroom]
  decide

/-- A daemon that is started as `cephfssyncd` with one variable of 129983 characters, below
an `ARG_MAX` of 131072, launches its first process with a limit of 2^64 - 976. -/
theorem wraps_of_largeEnvironment :
    let envpSize := getEnvSize [List.replicate 129983 'x']
    envpSize + Syncer.argMem "cephfssyncd".length + sizeofPtr ≤ 131072 ∧
    (∃ choices both,
      (headroomRounds.watch (syncMachine 4)).Steps Machine.unguarded
        ⟨.start (Syncer.new plainTokens 131072 envpSize oneDestination), 0⟩ choices both ∧
      both.state.control = .waiting ∧ both.state.children.length = 1 ∧
      both.state.syncer.maxMemUsage = 2 ^ 64 - 976) ∧
    ¬ NeverWraps 4 plainTokens 131072 envpSize oneDestination := by
  have size : getEnvSize [List.replicate 129983 'x'] = 130000 := by
    rw [getEnvSize, List.map_singleton, List.sum_singleton, Syncer.argMem, List.length_replicate]
    rfl
  rw [size]
  have executed : ((headroomRounds.watch (syncMachine 4)).run Machine.unguarded
      ⟨.start (Syncer.new plainTokens 131072 130000 oneDestination), 0⟩
      [.inl (.sync [plainFile "/s/./a".toList 1] [plainFile "/s/./a".toList 1]),
        .inl (.fork 11)]).any (fun both =>
      decide (both.state.control = .waiting ∧ both.state.children.length = 1 ∧
        both.state.syncer.maxMemUsage = 2 ^ 64 - 976)) = true := by
    decide +kernel
  obtain ⟨both, ran, passed⟩ := (Option.any_eq_true _ _).mp executed
  have steps := Machine.steps_of_run ran
  obtain ⟨waiting, launched, limit⟩ := of_decide_eq_true passed
  refine ⟨by decide, ⟨_, both, steps, waiting, launched, limit⟩, fun never => ?_⟩
  have exact := (never _ _ steps (by simp [waiting])).exact
  have known : Syncer.knownArgMax 131072 = 131072 := by norm_num [Syncer.knownArgMax]
  rw [limit, known] at exact
  have rounds : (0 : Int) ≤ (both.record + 1) * memLimHeadroom :=
    Int.mul_nonneg (by omega) (Int.natCast_nonneg _)
  omega

end CephGeoRep
