import CephGeoRep.Crawler.Marker
import CephGeoRep.Crawler.Payloads
import CephGeoRep.Syncer.Programs

/-!
# The bucket

`s3wrap.sh` puts the files that `Syncer::sync` hands to it into a bucket, one after the
other, and several of these scripts run at a time. The script is a program built from
`s3cmd`, which is not part of the repository: what it does is a parameter, of which only
what `PutsObjects` says is assumed. The object of a file is named after the first line of
its relative path, so files that share a first line overwrite each other.
-/

namespace CephGeoRep

open Semantics

/-! ## s3wrap.sh -/

/-- `$(echo "$ARG" | gawk -F '(/\\./)' '{print $2}')`: a second field for each line, and
no newlines at the end. -/
def s3wrapName (arg : CString) : CString :=
  (List.intercalate ['\n'] ((arg.splitOn '\n').map s3wrapRel)).rdropWhile (· = '\n')

/-- `s3://"$BUCKET"/"$REL"`. -/
def s3Object (bucket name : CString) : CString := "s3://".toList ++ bucket ++ '/' :: name

/-- The arguments in `s3cmd put "$ARG" s3://"$BUCKET"/"$REL"`. -/
def s3cmdArgs (file object : CString) : List CString := ["put".toList, file, object]

/-- The objects by their URIs, each with the path of the file that was put there. -/
abbrev Objects := CString → Option CString

/-- Where the script is. -/
inductive S3Wrap (Local : Type) where
  /-- At the head of the loop, with these arguments ahead. -/
  | looping (bucket : CString) (args : List CString)
  /-- Waiting for `s3cmd`, with these arguments behind it. -/
  | putting (bucket : CString) (args : List CString) (s3cmd : Local)
  /-- In `exit $EXIT_CODE`. -/
  | failed (exitCode : Nat)
deriving DecidableEq

/-- What happens to the script next. -/
inductive S3WrapEvent (Event : Type) where
  | call
  | step (event : Event)
  | returned (code : Nat)
  /-- A signal kills `s3cmd`. -/
  | killed (signo : Nat)

namespace S3Wrap

variable {Local Event : Type}

/-- `BUCKET=$1` and `shift`. -/
def start : List CString → S3Wrap Local
  | [] => .looping [] []
  | bucket :: args => .looping bucket args

/-- The rest of the loop, with the code in `EXIT_CODE`. -/
def resume (bucket : CString) (args : List CString) (exitCode : Nat) : S3Wrap Local :=
  if exitCode ≠ 0 then .failed exitCode else .looping bucket args

/-- One step of the script or of its `s3cmd`. -/
def step (s3cmd : Program CString Local Objects Event) :
    S3Wrap Local → Objects → S3WrapEvent Event → Option (S3Wrap Local × Objects)
  | .looping bucket (arg :: args), objects, .call =>
    let s3cmdArgs := s3cmdArgs arg (s3Object bucket (s3wrapName arg))
    some (.putting bucket args (s3cmd.start s3cmdArgs), objects)
  | .putting bucket args here, objects, .step event =>
    (s3cmd.step here objects event).map fun (there, after) => (.putting bucket args there, after)
  | .putting bucket args here, objects, .returned code =>
    if s3cmd.exits here code then some (resume bucket args (code % 256), objects) else none
  | .putting bucket args _, objects, .killed signo =>
    if 0 < signo ∧ signo < 128 then some (resume bucket args (128 + signo), objects) else none
  | _, _, _ => none

/-- How the script exits, if it does so now. -/
def exitCode : S3Wrap Local → Option Nat
  | .looping _ [] => some 0
  | .looping _ (_ :: _) | .putting .. => none
  | .failed exitCode => some exitCode

end S3Wrap

/-- The script as a program. -/
def s3wrap {Local Event : Type} (s3cmd : Program CString Local Objects Event) :
    Program Arg (S3Wrap Local) Objects (S3WrapEvent Event) where
  start argv := .start (operands argv)
  step := S3Wrap.step s3cmd
  exits script code := script.exitCode == some code

/-! ## The names of the objects -/

/-- The first line of a text. -/
def firstLine (text : CString) : CString := text.takeWhile (· ≠ '\n')

section Names

variable {arg front back name text : CString}

theorem not_mem_firstLine (text : CString) : '\n' ∉ firstLine text := by
  intro member
  simpa using List.mem_takeWhile_imp member

theorem infix_intercalate {texts : List CString} (member : text ∈ texts) :
    text <:+: List.intercalate ['\n'] texts := by
  induction texts with
  | nil => cases member
  | cons first texts ih =>
      by_cases alone : texts = []
      · rw [alone] at member ⊢
        rw [List.mem_singleton.mp member, List.intercalate_singleton]
      · rw [List.intercalate_cons_of_ne_nil alone]
        rcases List.mem_cons.mp member with rfl | later
        · rw [List.append_assoc]
          exact (List.prefix_append _ _).isInfix
        · exact (ih later).trans (List.suffix_append _ _).isInfix

/-- The lines of a text that starts on one line. -/
theorem splitOn_firstLine (single : '\n' ∉ front) (back : CString) :
    ∃ later, (front ++ back).splitOn '\n' = (front ++ firstLine back) :: later ∧
      ∀ line ∈ later, line <:+: back := by
  have solid : '\n' ∉ front ++ firstLine back := by
    rw [List.mem_append, not_or]
    exact ⟨single, not_mem_firstLine back⟩
  have parts : firstLine back ++ back.dropWhile (· ≠ '\n') = back :=
    List.takeWhile_append_dropWhile
  cases behind : back.dropWhile (· ≠ '\n') with
  | nil =>
      rw [behind, List.append_nil] at parts
      refine ⟨[], ?_, List.forall_mem_nil _⟩
      rw [parts] at solid ⊢
      exact List.splitOn_eq_singleton solid
  | cons char rest =>
      obtain rfl : char = '\n' := by
        have stop := List.head?_dropWhile_not (fun char => decide (char ≠ '\n')) back
        rw [behind] at stop
        simpa using stop
      have whole : front ++ back = (front ++ firstLine back) ++ '\n' :: rest := by
        rw [List.append_assoc, ← behind, parts]
      refine ⟨rest.splitOn '\n', ?_, fun line member => ?_⟩
      · rw [whole, List.splitOn_append_cons_self_of_not_mem solid]
      · have inside := infix_intercalate member
        rw [List.intercalate_splitOn] at inside
        have tail : rest <:+ back := by
          rw [← parts, behind]
          exact (List.suffix_cons '\n' rest).trans (List.suffix_append _ _)
        exact inside.trans tail.isInfix

theorem intercalate_empty {later : List CString} (empty : ∀ line ∈ later, line = [])
    (text : CString) :
    List.intercalate ['\n'] (text :: later) = text ++ List.replicate later.length '\n' := by
  induction later generalizing text with
  | nil => simp
  | cons line later ih =>
      rw [List.forall_mem_cons] at empty
      rw [List.intercalate_cons_cons, ih empty.2, empty.1]
      simp [List.replicate_succ]

/-- Empty lines at the end are cut off. -/
theorem rdropWhile_intercalate {later : List CString} (empty : ∀ line ∈ later, line = [])
    (solid : '\n' ∉ text) :
    (List.intercalate ['\n'] (text :: later)).rdropWhile (· = '\n') = text := by
  rw [intercalate_empty empty]
  induction later.length with
  | zero =>
      rw [List.replicate_zero, List.append_nil, List.rdropWhile_eq_self_iff]
      intro nonempty last
      exact solid (of_decide_eq_true last ▸ List.getLast_mem nonempty)
  | succ count ih =>
      rw [List.replicate_succ', ← List.append_assoc, List.rdropWhile_concat_pos _ _ _ (by simp), ih]

/-- Without a marker there is no second field. -/
theorem s3wrapRel_of_unmarked (unmarked : ¬ marker <:+: text) : s3wrapRel text = [] := by
  rw [s3wrapRel, Support.cutAt_eq_none_iff.mpr unmarked]

/-- The second field ends at the next marker, or with the line. -/
theorem s3wrapRel_append (clear : ¬ marker <:+: front ++ marker.dropLast)
    (unmarked : ¬ marker <:+: back) : s3wrapRel (front ++ (marker ++ back)) = back := by
  have cut := (Support.cutAt_append_iff (by decide) front back).mpr clear
  obtain ⟨⟨before, rest⟩, found, same⟩ := Option.map_eq_some_iff.mp cut
  have rest : rest = back := same
  rw [s3wrapRel, found, rest]
  change ((Support.cutAt marker back).map Prod.fst).getD back = back
  rw [Support.cutAt_eq_none_iff.mpr unmarked]
  rfl

/-- Behind the marker only the first line counts. -/
theorem s3wrapName_append (clear : ¬ marker <:+: front ++ marker.dropLast)
    (single : '\n' ∉ front) (unmarked : ¬ marker <:+: back) :
    s3wrapName (front ++ (marker ++ back)) = firstLine back := by
  have marked : '\n' ∉ front ++ marker := by simpa [marker] using single
  obtain ⟨later, lines, inside⟩ := splitOn_firstLine marked back
  have first : s3wrapRel (front ++ (marker ++ firstLine back)) = firstLine back :=
    s3wrapRel_append clear fun found => unmarked (found.trans (List.takeWhile_prefix _).isInfix)
  rw [s3wrapName, ← List.append_assoc, lines, List.map_cons, List.append_assoc, first]
  apply rdropWhile_intercalate
  · intro line member
    obtain ⟨source, listed, rfl⟩ := List.mem_map.mp member
    exact s3wrapRel_of_unmarked fun found => unmarked (found.trans (inside source listed))
  · exact not_mem_firstLine back

/-- The first line of a name that does not start with a new one. -/
theorem firstLine_name (valid : (text ≠ [] ∧ '/' ∉ text) ∧ text.head? ≠ some '\n') :
    firstLine text ≠ [] ∧ (firstLine text).getLast? ≠ some '/' := by
  obtain ⟨⟨nonempty, noSlash⟩, head⟩ := valid
  obtain ⟨char, rest, rfl⟩ := List.exists_cons_of_ne_nil nonempty
  have differs : char ≠ '\n' := fun same => head (by rw [List.head?_cons, same])
  refine ⟨by simp [firstLine, differs], fun last => noSlash ?_⟩
  exact (List.takeWhile_prefix _).mem (List.mem_of_getLast? last)

/-- The first line of a relative path can name an object if no name in it starts a line. -/
theorem firstLine_joined {names : List CString}
    (valid : ∀ each ∈ name :: names, (each ≠ [] ∧ '/' ∉ each) ∧ each.head? ≠ some '\n') :
    firstLine (joined (name :: names)).tail ≠ [] ∧
      (firstLine (joined (name :: names)).tail).getLast? ≠ some '/' := by
  induction names generalizing name with
  | nil =>
      rw [joined_cons, List.tail_cons, show joined [] = [] from rfl, List.append_nil]
      exact firstLine_name (valid name List.mem_cons_self)
  | cons next names ih =>
      have later := ih fun each member => valid each (.tail _ member)
      have parts : (joined (name :: next :: names)).tail =
          name ++ '/' :: (joined (next :: names)).tail := by
        simp [joined]
      rw [parts, firstLine, List.takeWhile_append]
      split
      · rw [List.takeWhile_cons_of_pos (by decide)]
        refine ⟨by simp, ?_⟩
        rw [List.getLast?_append_cons]
        exact fun last => later.2 ((List.getLast?_cons_of_ne_nil later.1).symm.trans last)
      · exact firstLine_name (valid name List.mem_cons_self)

end Names

/-! ## What the script does -/

/-- Allowed files have been stored in allowed objects, and nothing else has changed. -/
def Objects.Puts (allowed : CString → CString → Prop) (before after : Objects) : Prop :=
  ∀ object, after object = before object ∨ ∃ file, after object = some file ∧ allowed object file

/-- `s3cmd put FILE URI`, for an absolute path and the URI of an object: it changes no other
object than this one, in which it stores the file. When it exits with code 0, it has done
so, and others may have stored a file of theirs there since. -/
def PutsObjects {Local Event : Type} (s3cmd : Program CString Local Objects Event) : Prop :=
  ∀ (allowed : CString → CString → Prop) (file object : CString), file.head? = some '/' →
    object.getLast? ≠ some '/' → allowed object file →
    s3cmd.Meets (s3cmdArgs file object) (Objects.Puts allowed)
      (Objects.Puts fun object' file' => object' = object ∧ file' = file)
      fun objects => ∃ file', objects object = some file' ∧ allowed object file'

section Script

variable {Local Event : Type} {s3cmd : Program CString Local Objects Event}
  {allowed more : CString → CString → Prop} {before objects after : Objects}
  {bucket path object : CString} {paths past args : List CString} {script there : S3Wrap Local}

theorem Objects.Puts.refl (allowed : CString → CString → Prop) (objects : Objects) :
    Objects.Puts allowed objects objects :=
  fun _ => .inl rfl

theorem Objects.Puts.trans (first : Objects.Puts allowed before objects)
    (second : Objects.Puts allowed objects after) : Objects.Puts allowed before after := by
  intro object
  rcases second object with same | put
  · rw [same]
    exact first object
  · exact .inr put

theorem Objects.Puts.mono (puts : Objects.Puts allowed before after)
    (implies : ∀ object file, allowed object file → more object file) :
    Objects.Puts more before after :=
  fun object => (puts object).imp_right fun ⟨file, here, known⟩ =>
    ⟨file, here, implies object file known⟩

/-- The object of a path holds a file that is allowed there. -/
def Filed (allowed : CString → CString → Prop) (bucket : CString) (objects : Objects)
    (path : CString) : Prop :=
  ∃ file, objects (s3Object bucket (s3wrapName path)) = some file ∧
    allowed (s3Object bucket (s3wrapName path)) file

theorem Filed.puts (filed : Filed allowed bucket objects path)
    (puts : Objects.Puts allowed objects after) : Filed allowed bucket after path := by
  rcases puts (s3Object bucket (s3wrapName path)) with same | put
  · rw [Filed, same]
    exact filed
  · exact put

/-- What the script has done of its paths. -/
inductive S3Wrap.Runs (s3cmd : Program CString Local Objects Event)
    (allowed : CString → CString → Prop) (bucket : CString) (paths : List CString)
    (objects : Objects) : S3Wrap Local → Prop where
  | looping {past args : List CString} (whole : paths = past ++ args)
      (filed : ∀ path ∈ past, Filed allowed bucket objects path) :
      Runs s3cmd allowed bucket paths objects (.looping bucket args)
  | putting {past args : List CString} {path : CString} {here : Local}
      (whole : paths = past ++ path :: args)
      (filed : ∀ path ∈ past, Filed allowed bucket objects path)
      (runs : s3cmd.Runs (Objects.Puts allowed)
        (s3cmdArgs path (s3Object bucket (s3wrapName path))) here objects) :
      Runs s3cmd allowed bucket paths objects (.putting bucket args here)
  | failed {exitCode : Nat} (nonzero : exitCode % 256 ≠ 0) :
      Runs s3cmd allowed bucket paths objects (.failed exitCode)

/-- The paths that the script can put. -/
def Puttable (allowed : CString → CString → Prop) (bucket path : CString) : Prop :=
  path.head? = some '/' ∧ (s3Object bucket (s3wrapName path)).getLast? ≠ some '/' ∧
    allowed (s3Object bucket (s3wrapName path)) path

namespace S3Wrap.Runs

theorem puts (runs : script.Runs s3cmd allowed bucket paths objects)
    (puts : Objects.Puts allowed objects after) :
    script.Runs s3cmd allowed bucket paths after := by
  cases runs with
  | looping whole filed => exact .looping whole fun path member => (filed path member).puts puts
  | putting whole filed runs =>
      exact .putting whole (fun path member => (filed path member).puts puts) (runs.others puts)
  | failed nonzero => exact .failed nonzero

/-- When `s3cmd` has ended, the script goes on or fails. -/
theorem resume (whole : paths = past ++ path :: args)
    (filed : ∀ path ∈ past, Filed allowed bucket objects path) {exitCode : Nat}
    (byte : exitCode < 256) (stored : exitCode = 0 → Filed allowed bucket objects path) :
    (S3Wrap.resume bucket args exitCode : S3Wrap Local).Runs s3cmd allowed bucket paths
      objects := by
  rw [S3Wrap.resume]
  split
  · next nonzero => exact .failed (by rwa [Nat.mod_eq_of_lt byte])
  · next zero =>
    have further : paths = (past ++ [path]) ++ args := by simpa using whole
    refine .looping further fun other member => ?_
    rcases List.mem_append.mp member with before | here
    · exact filed other before
    · rw [List.mem_singleton.mp here]
      exact stored (not_not.mp zero)

/-- A step of the script keeps its run, and stores allowed files. -/
theorem step (puts : PutsObjects s3cmd)
    (puttable : ∀ path ∈ paths, Puttable allowed bucket path)
    (runs : script.Runs s3cmd allowed bucket paths objects) {event : S3WrapEvent Event}
    (taken : script.step s3cmd objects event = some (there, after)) :
    there.Runs s3cmd allowed bucket paths after ∧ Objects.Puts allowed objects after := by
  cases runs with
  | @looping past args whole filed =>
      cases args with
      | nil => cases event <;> cases taken
      | cons path args =>
          cases event with
          | call =>
              cases taken
              exact ⟨.putting whole filed (.start _), .refl _ _⟩
          | step _ | returned _ | killed _ => cases taken
  | @putting past args path here whole filed runs =>
      obtain ⟨absolute, proper, known⟩ := puttable path (whole ▸ by simp)
      have meets := puts allowed path _ absolute proper known
      cases event with
      | call => cases taken
      | step event =>
          obtain ⟨⟨local', world⟩, stepped, equal⟩ := Option.map_eq_some_iff.mp taken
          cases equal
          have stored : Objects.Puts allowed objects after := by
            apply (meets.keeps _ _ _ _ _ runs stepped).mono
            rintro _ _ ⟨rfl, rfl⟩
            exact known
          exact ⟨.putting whole (fun path member => (filed path member).puts stored)
            (runs.step stepped), stored⟩
      | returned code =>
          simp only [S3Wrap.step, Option.ite_none_right_eq_some, Option.some.injEq,
            Prod.mk.injEq] at taken
          obtain ⟨exits, rfl, rfl⟩ := taken
          refine ⟨resume whole filed (Nat.mod_lt _ (by decide)) fun zero => ?_, .refl _ _⟩
          exact meets.ends _ _ _ runs exits zero
      | killed signo =>
          simp only [S3Wrap.step, Option.ite_none_right_eq_some, Option.some.injEq,
            Prod.mk.injEq] at taken
          obtain ⟨⟨_, below⟩, rfl, rfl⟩ := taken
          exact ⟨resume whole filed (by omega) (by omega), .refl _ _⟩
  | failed nonzero => cases event <;> cases taken

end S3Wrap.Runs

/-- If `s3cmd` puts objects, the script puts all its paths, and nothing else. -/
theorem s3wrap_meets (puts : PutsObjects s3cmd) {argv : List Arg}
    (called : operands argv = bucket :: paths)
    (puttable : ∀ path ∈ paths, Puttable allowed bucket path) :
    (s3wrap s3cmd).Meets argv (Objects.Puts allowed) (Objects.Puts allowed)
      fun objects => ∀ path ∈ paths, Filed allowed bucket objects path := by
  apply Program.Meets.of_invariant fun script objects =>
    script.Runs s3cmd allowed bucket paths objects
  · intro objects
    show (S3Wrap.start (operands argv)).Runs s3cmd allowed bucket paths objects
    rw [called]
    exact .looping (show paths = [] ++ paths from rfl) (List.forall_mem_nil _)
  · intro here objects event there after runs taken
    exact runs.step puts puttable taken
  · intro here objects after runs allowed
    exact runs.puts allowed
  · intro here objects code runs exits zero
    have exits : here.exitCode = some code := eq_of_beq exits
    cases runs with
    | @looping past args whole filed =>
        cases args with
        | nil => rwa [whole, List.append_nil]
        | cons path args => cases exits
    | putting whole filed runs => cases exits
    | failed nonzero =>
        cases exits
        exact absurd zero nonzero

end Script

/-! ## The scripts of a call -/

/-- The scripts of the children and the objects, and what the objects were when
`Syncer::sync` was called. -/
structure Uploads (Local : Type) where
  before : Objects
  scripts : Family (S3Wrap Local) Objects

/-- The objects now. -/
def Uploads.objects {Local : Type} (uploads : Uploads Local) : Objects := uploads.scripts.world

section Uploads

variable {Local Event : Type} (s3cmd : Program CString Local Objects Event)

/-- Follows the scripts. -/
def uploadObserver (objects : Objects) :
    Observer State Choice (Uploads Local) (ProgramEvent (S3WrapEvent Event)) where
  start _ := ⟨objects, .empty objects⟩
  note state choice _ uploads :=
    match choice with
    | .sync _ _ => { uploads with before := uploads.objects }
    | choice => { uploads with scripts := state.execute (s3wrap s3cmd) choice uploads.scripts }
  see state event uploads :=
    (state.advance (s3wrap s3cmd) event uploads.scripts).map fun scripts =>
      { uploads with scripts := scripts }

/-- The runs in which the children are undisturbed scripts. -/
def scripted (both : Observed State (Uploads Local)) :
    Choice ⊕ ProgramEvent (S3WrapEvent Event) → Prop
  | .inl choice => undisturbed both.state choice ∧
      State.exitsAs (s3wrap s3cmd) both.record.scripts choice
  | .inr _ => True

instance (both : Observed State (Uploads Local)) : ∀ choice, Decidable (scripted s3cmd both choice)
  | .inl choice => inferInstanceAs (Decidable (undisturbed both.state choice ∧
      State.exitsAs (s3wrap s3cmd) both.record.scripts choice))
  | .inr _ => .isTrue trivial

/-- Called with a bucket only: one flag, and no destination. -/
def State.Wraps (bucket : CString) (state : State) : Prop :=
  state.syncer.garbage = [bucket] ∧ state.syncer.destinations.names = [[]]

/-- A file of the queue in its object. -/
def State.Names (bucket : CString) (state : State) (object path : CString) : Prop :=
  ∃ file ∈ state.queue, file.path = path ∧ object = s3Object bucket (s3wrapName path)

/-- Called with a bucket, on files that can be put. -/
def State.Uploadable (bucket : CString) (state : State) : Prop :=
  state.Wraps bucket ∧ ∀ file ∈ state.queue, Puttable (state.Names bucket) bucket file.path

/-- What a script leaves behind that exits with code 0. -/
def AllFiled (bucket : CString) (state : State) (argv : List Arg) (objects : Objects) : Prop :=
  ∀ path ∈ (operands argv).tail, Filed (state.Names bucket) bucket objects path

/-- The scripts run as they should, the finished ones have put everything, and only objects
of the queue have changed since the call. -/
structure Uploading (bucket : CString) (both : Observed State (Uploads Local)) : Prop where
  performing : both.state.Performing (s3wrap s3cmd) (Objects.Puts (both.state.Names bucket))
    (AllFiled bucket both.state) both.record.scripts
  performed : both.state.Performed (AllFiled bucket both.state) both.record.objects
  frame : Objects.Puts (both.state.Names bucket) both.record.before both.record.objects

variable {s3cmd} {objects : Objects} {capacity : Nat} {state next : State} {choice : Choice}
  {both : Observed State (Uploads Local)} {bucket : CString} {batch : List Nat} {child : Child}

/-- The arguments of a child are the flags, the paths of its batch and the destination. -/
theorem operands_commandLine (inside : ∀ position ∈ batch, position < state.queue.length)
    (destination : CString) : operands (state.commandLine batch destination) =
      state.syncer.garbage ++ (batch.filterMap (pathAt state.queue) ++
        if destination.isEmpty then [] else [destination]) := by
  have args : state.commandLine batch destination = some state.syncer.execBin ::
      (state.syncer.garbage ++ (batch.filterMap (pathAt state.queue) ++
        if destination.isEmpty then [] else [destination])).map some ++ [none] := by
    rw [State.commandLine, State.map_pathAt inside]
    split <;> simp
  rw [args, operands_map]

/-- The bucket and the queue stay the same within a call. -/
theorem State.Wraps.of_move (wraps : next.Wraps bucket)
    (move : State.Move capacity state choice next) : state.Wraps bucket :=
  ⟨(State.command_of_move move).2 ▸ wraps.1, State.names_of_move move ▸ wraps.2⟩

theorem State.names_congr (same : next.queue = state.queue) (bucket : CString) :
    next.Names bucket = state.Names bucket := by
  unfold State.Names
  rw [same]

theorem allFiled_congr (same : next.queue = state.queue) (bucket : CString) :
    AllFiled bucket next = AllFiled bucket state := by
  unfold AllFiled
  rw [State.names_congr same]

/-- The arguments of a child that has a bucket and no destination. -/
theorem operands_of_wraps (addressed : state.Addressed) (wraps : state.Wraps bucket)
    (member : child ∈ state.children) (destination : child.destination = []) :
    operands child.argv = bucket :: child.batch.filterMap (pathAt state.queue) := by
  rw [addressed.commandLine member,
    operands_commandLine (addressed.children child member).inside, wraps.1, destination]
  simp

/-- The children are scripts that put files of the queue. -/
theorem meets_of_uploadable (puts : PutsObjects s3cmd) (addressed : state.Addressed)
    (destined : state.Destined) (uploadable : state.Uploadable bucket)
    (member : child ∈ state.children) :
    (s3wrap s3cmd).Meets child.argv (Objects.Puts (state.Names bucket))
      (Objects.Puts (state.Names bucket)) (AllFiled bucket state child.argv) := by
  have destination : child.destination = [] := by
    have name := destined child member
    rw [uploadable.1.2] at name
    exact List.mem_singleton.mp name
  have called := operands_of_wraps addressed uploadable.1 member destination
  have filed : AllFiled bucket state child.argv = fun objects =>
      ∀ path ∈ child.batch.filterMap (pathAt state.queue),
        Filed (state.Names bucket) bucket objects path := by
    unfold AllFiled
    rw [called, List.tail_cons]
  rw [filed]
  refine s3wrap_meets puts called fun path listed => ?_
  obtain ⟨position, _, isPath⟩ := List.mem_filterMap.mp listed
  obtain ⟨file, here, rfl⟩ := Option.map_eq_some_iff.mp isPath
  exact uploadable.2 file (List.mem_of_getElem? here)

theorem quiet_of_scripted
    (reachable : ((uploadObserver s3cmd objects).watch (syncMachine capacity)).Reachable
      (scripted s3cmd) both) : (syncMachine capacity).Reachable undisturbed both.state :=
  Observer.reachable reachable fun _ _ allowed => allowed.1

/-- A call of `Syncer::sync` starts without children. -/
theorem children_of_sync {queue sorted : List File} (accounted : state.Accounted)
    (move : State.Move capacity state (.sync queue sorted) next) : next.children = [] := by
  cases move with
  | sync idle _ _ => exact accounted.outstanding_eq_nil (by rw [idle]; rfl)

/-- Nothing has been put when `Syncer::sync` is called. -/
theorem uploading_of_sync {queue sorted : List File} (accounted : both.state.Accounted)
    (move : State.Move capacity both.state (.sync queue sorted) next) :
    Uploading s3cmd bucket
      ⟨next, (uploadObserver s3cmd objects).note both.state (.sync queue sorted) next
        both.record⟩ := by
  have childless := children_of_sync accounted move
  exact {
    performing := State.performing_of_childless _ _ _ childless _
    performed := State.performed_of_childless _ childless _
    frame := .refl _ _ }

/-- Within a call the scripts go on. -/
theorem Uploading.of_move (uploading : Uploading s3cmd bucket both) (puts : PutsObjects s3cmd)
    (quiet : both.state.Quiet) (accounted : both.state.Accounted)
    (addressed : both.state.Addressed) (destined : both.state.Destined)
    (uploadable : both.state.Uploadable bucket)
    (exits : State.exitsAs (s3wrap s3cmd) both.record.scripts choice)
    (same : next.queue = both.state.queue) (move : State.Move capacity both.state choice next) :
    Uploading s3cmd bucket ⟨next, { both.record with
      scripts := both.state.execute (s3wrap s3cmd) choice both.record.scripts }⟩ where
  performing := by
    rw [State.names_congr same, allFiled_congr same]
    exact uploading.performing.of_move accounted
      (fun child member => meets_of_uploadable puts addressed destined uploadable member) move
  performed := by
    rw [allFiled_congr same, Uploads.objects, State.execute_world]
    exact uploading.performed.of_move uploading.performing quiet exits move
  frame := by
    rw [State.names_congr same, Uploads.objects, State.execute_world]
    exact uploading.frame

theorem Uploading.of_event (uploading : Uploading s3cmd bucket both)
    {event : ProgramEvent (S3WrapEvent Event)} {uploads : Uploads Local}
    (seen : (uploadObserver s3cmd objects).see both.state event both.record = some uploads) :
    Uploading s3cmd bucket { both with record := uploads } := by
  obtain ⟨scripts, advanced, rfl⟩ := Option.map_eq_some_iff.mp seen
  obtain ⟨performing, stored⟩ := uploading.performing.of_advance advanced
  exact {
    performing := performing
    performed := uploading.performed.mono fun argv filed path member =>
      (filed path member).puts stored
    frame := uploading.frame.trans stored }

/-- The scripts run as they should in all runs of undisturbed scripts. -/
theorem uploading_invariant (puts : PutsObjects s3cmd) (objects : Objects) (capacity : Nat)
    (bucket : CString) :
    ((uploadObserver s3cmd objects).watch (syncMachine capacity)).Invariant (scripted s3cmd)
      fun both => both.state.Uploadable bucket → Uploading s3cmd bucket both :=
  Observer.invariant
    (by
      rintro _ ⟨tokenize, argMax, envpSize, config, rfl⟩ _
      exact {
        performing := State.performing_of_childless _ _ _ rfl _
        performed := State.performed_of_childless _ rfl _
        frame := .refl _ _ })
    (fun both choice next reachable uploading allowed taken uploadable => by
      have earlier := quiet_of_scripted reachable
      have accounted := State.accounted_invariant.of_reachable earlier
      have move := State.moves_of_step taken
      by_cases called : ∃ queue sorted, choice = .sync queue sorted
      · obtain ⟨queue, sorted, rfl⟩ := called
        exact uploading_of_sync accounted move
      have same : next.queue = both.state.queue := by
        rcases State.queue_of_move move with same | ⟨queue, sorted, sync, _⟩
        · exact same
        · exact absurd ⟨queue, sorted, sync⟩ called
      have before : both.state.Uploadable bucket := by
        refine ⟨uploadable.1.of_move move, fun file member => ?_⟩
        rw [← State.names_congr same]
        exact uploadable.2 file (same ▸ member)
      have noted : (uploadObserver s3cmd objects).note both.state choice next both.record =
          { both.record with
            scripts := both.state.execute (s3wrap s3cmd) choice both.record.scripts } := by
        cases choice with
        | sync queue sorted => exact absurd ⟨queue, sorted, rfl⟩ called
        | _ => rfl
      rw [noted]
      exact (uploading before).of_move puts
        ((State.quiet_invariant fun _ _ late => late.2).of_reachable earlier) accounted
        (State.addressed_invariant.of_reachable earlier)
        (State.destined_invariant.of_reachable earlier) before allowed.2 same move)
    (fun both event uploads _ uploading _ seen uploadable => (uploading uploadable).of_event seen)

/-- When `Syncer::sync` returns, every file of the queue has been put. -/
theorem filed_of_synced (puts : PutsObjects s3cmd)
    (reachable : ((uploadObserver s3cmd objects).watch (syncMachine capacity)).Reachable
      (scripted s3cmd) both) (uploadable : both.state.Uploadable bucket)
    (synced : both.state.control = .synced) {file : File} (member : file ∈ both.state.queue) :
    Filed (both.state.Names bucket) bucket both.record.objects file.path := by
  have exits : (syncMachine capacity).Reachable exitsOnly both.state :=
    (quiet_of_scripted reachable).mono fun _ _ allowed => allowed.1
  have addressed := State.addressed_invariant.of_reachable exits
  obtain ⟨child, listed, inBatch, _, succeeded⟩ := State.child_of_synced
    (State.delivered_invariant.of_reachable exits) (State.batched_invariant.of_reachable exits)
    (State.accounted_invariant.of_reachable exits) synced member
  have uploading := (uploading_invariant puts objects capacity bucket).of_reachable reachable
    uploadable
  apply uploading.performed child listed (Child.finished_of_succeeded succeeded)
  rw [addressed.commandLine listed, operands_commandLine (addressed.children child listed).inside,
    uploadable.1.1, List.singleton_append, List.tail_cons]
  exact List.mem_append_left _ inBatch

theorem s3Object_injective {name other : CString}
    (same : s3Object bucket name = s3Object bucket other) : name = other := by
  rw [s3Object, s3Object] at same
  exact (List.cons.inj (List.append_cancel_left same)).2

section Snapshot

variable {listing : Listing} {basePath : CString} {pid : Nat} {rctime : Timespec} {route : Route}

theorem newline_createSnapPath (single : '\n' ∉ basePath) :
    '\n' ∉ createSnapPath basePath pid rctime := by
  have digits : '\n' ∉ Nat.toDigits 10 pid := fun member =>
    absurd (isDigit_toDigits pid _ member) (by decide)
  have fixed : '\n' ∉ ".snap".toList ∧ '\n' ∉ "snapshot".toList := by decide
  have name : '\n' ∉ ".snap".toList ++ '/' :: snapName pid rctime := by
    simp only [snapName, List.mem_append, List.mem_cons, not_or]
    exact ⟨fixed.1, by decide, ⟨digits, fixed.2⟩, not_mem_showInt _ (by decide) (by decide),
      by decide, not_mem_showInt _ (by decide) (by decide)⟩
  rw [createSnapPath_eq, fsAppend]
  split
  · exact fun member => (List.mem_append.mp member).elim single name
  · simp only [List.mem_append, List.mem_cons, not_or] at name ⊢
    exact ⟨single, by decide, name⟩

/-- The object of a file is named after the first line of its relative path. -/
theorem s3wrapName_file (proper : listing.Proper) (unmarked : ¬ marker <:+: basePath ++ ['/'])
    (single : '\n' ∉ basePath) (member : route ∈ listing.routes)
    (regular : route.attributes.stat.isDir = false) (noPoint : ['.'] ∉ route.names) :
    s3wrapName (route.file (createSnapPath basePath pid rctime)).path =
      firstLine route.relative := by
  have valid := Listing.names_of_routes proper member
  rw [(path_of_marked (extensible_createSnapPath basePath pid rctime) valid regular).2]
  apply s3wrapName_append
  · rwa [marker_infix_iff]
  · exact newline_createSnapPath single
  · intro inside
    apply not_marker_infix_joined fun name listed =>
      ⟨(valid name listed).2, fun same => noPoint (same ▸ listed)⟩
    exact inside.trans (List.tail_suffix _).isInfix

/-- The URI of a file of a snapshot is that of an object. -/
theorem puttable_file (proper : listing.Proper) (absolute : basePath.head? = some '/')
    (unmarked : ¬ marker <:+: basePath ++ ['/']) (single : '\n' ∉ basePath)
    (member : route ∈ listing.routes) (regular : route.attributes.stat.isDir = false)
    (clear : ∀ name ∈ route.names, name ≠ ['.'] ∧ name.head? ≠ some '\n')
    (inQueue : route.file (createSnapPath basePath pid rctime) ∈ state.queue) :
    Puttable (state.Names bucket) bucket
      (route.file (createSnapPath basePath pid rctime)).path := by
  have valid := Listing.names_of_routes proper member
  refine ⟨?_, ?_, _, inQueue, rfl, rfl⟩
  · exact absolute_file (extensible_createSnapPath basePath pid rctime) valid regular
      (absolute_createSnapPath absolute pid rctime)
  · rw [s3wrapName_file proper unmarked single member regular fun point =>
      (clear _ point).1 rfl]
    obtain ⟨name, names, equal⟩ := List.exists_cons_of_ne_nil
      (show route.names ≠ [] by simp [Route.names])
    have line : firstLine route.relative ≠ [] ∧
        (firstLine route.relative).getLast? ≠ some '/' := by
      rw [Route.relative, equal]
      exact firstLine_joined fun each listed =>
        ⟨valid each (equal ▸ listed), (clear each (equal ▸ listed)).2⟩
    rw [s3Object, List.getLast?_append_cons, List.getLast?_cons_of_ne_nil line.1]
    exact line.2

/-- When a call of `Syncer::sync` returns that has run `s3wrap.sh` on files of a snapshot,
every file is in the bucket under the first line of its relative path, or another file of
the queue with the same first line is. No other object has changed since the call. -/
theorem uploaded_of_reachable (puts : PutsObjects s3cmd)
    (reachable : ((uploadObserver s3cmd objects).watch (syncMachine capacity)).Reachable
      (scripted s3cmd) both)
    (wraps : both.state.Wraps bucket) (synced : both.state.control = .synced)
    (proper : listing.Proper) (absolute : basePath.head? = some '/')
    (unmarked : ¬ marker <:+: basePath ++ ['/']) (single : '\n' ∉ basePath)
    (clear : ∀ route ∈ listing.routes, ∀ name ∈ route.names,
      name ≠ ['.'] ∧ name.head? ≠ some '\n')
    (queued : ∀ file ∈ both.state.queue, ∃ route ∈ listing.routes,
      route.attributes.stat.isDir = false ∧
        route.file (createSnapPath basePath pid rctime) = file) :
    (∀ route ∈ listing.routes, route.attributes.stat.isDir = false →
      route.file (createSnapPath basePath pid rctime) ∈ both.state.queue →
      ∃ other ∈ listing.routes,
        other.file (createSnapPath basePath pid rctime) ∈ both.state.queue ∧
        firstLine other.relative = firstLine route.relative ∧
        both.record.objects (s3Object bucket (firstLine route.relative)) =
          some (other.file (createSnapPath basePath pid rctime)).path) ∧
    ∀ object, both.record.objects object = both.record.before object ∨
      ∃ route ∈ listing.routes,
        route.file (createSnapPath basePath pid rctime) ∈ both.state.queue ∧
        object = s3Object bucket (firstLine route.relative) ∧
        both.record.objects object =
          some (route.file (createSnapPath basePath pid rctime)).path := by
  have name : ∀ route ∈ listing.routes, route.attributes.stat.isDir = false →
      s3wrapName (route.file (createSnapPath basePath pid rctime)).path =
        firstLine route.relative := fun route member regular =>
    s3wrapName_file proper unmarked single member regular fun point =>
      (clear route member _ point).1 rfl
  have named : ∀ object path, both.state.Names bucket object path → ∃ route ∈ listing.routes,
      route.file (createSnapPath basePath pid rctime) ∈ both.state.queue ∧
      object = s3Object bucket (firstLine route.relative) ∧
      path = (route.file (createSnapPath basePath pid rctime)).path := by
    rintro object path ⟨file, inQueue, rfl, rfl⟩
    obtain ⟨route, member, regular, rfl⟩ := queued file inQueue
    exact ⟨route, member, inQueue, by rw [name route member regular], rfl⟩
  have uploadable : both.state.Uploadable bucket := by
    refine ⟨wraps, fun file inQueue => ?_⟩
    obtain ⟨route, member, regular, rfl⟩ := queued file inQueue
    exact puttable_file proper absolute unmarked single member regular (clear route member)
      inQueue
  constructor
  · intro route member regular inQueue
    obtain ⟨path, holds, known⟩ := filed_of_synced puts reachable uploadable synced inQueue
    rw [name route member regular] at holds known
    obtain ⟨other, member', inQueue', same, rfl⟩ := named _ _ known
    exact ⟨other, member', inQueue', (s3Object_injective same).symm, holds⟩
  · intro object
    have frame := ((uploading_invariant puts objects capacity bucket).of_reachable reachable
      uploadable).frame object
    refine frame.imp_right fun ⟨path, holds, known⟩ => ?_
    obtain ⟨route, member, inQueue, equal, rfl⟩ := named _ _ known
    exact ⟨route, member, inQueue, equal, holds⟩

end Snapshot

end Uploads

/-- An `s3cmd` that stores the file in one step, or fails. -/
inductive SimpleS3cmd where
  | ready (file object : CString)
  | stored
  | failed
deriving DecidableEq

/-- `s3cmd put FILE URI`; the event tells whether it can be stored. -/
def simpleS3cmd : Program CString SimpleS3cmd Objects Bool where
  start
    | [put, file, object] => if put = "put".toList then .ready file object else .failed
    | _ => .failed
  step
    | .ready file object, objects, true =>
      some (.stored, Function.update objects object (some file))
    | .ready _ _, objects, false => some (.failed, objects)
    | .stored, _, _ | .failed, _, _ => none
  exits
    | .ready _ _, _ => false
    | .stored, code => code == 0
    | .failed, code => code == 64

theorem putsObjects_simpleS3cmd : PutsObjects simpleS3cmd := by
  intro allowed file object absolute proper known
  apply Program.Meets.of_invariant fun here objects => here = .ready file object ∨
    here = .failed ∨
    here = .stored ∧ ∃ file', objects object = some file' ∧ allowed object file'
  · exact fun objects => .inl rfl
  · rintro here objects event there after (rfl | rfl | ⟨rfl, _⟩) taken
    · cases event with
      | true =>
          cases taken
          refine ⟨.inr (.inr ⟨rfl, file, Function.update_self .., known⟩), fun object' => ?_⟩
          by_cases same : object' = object
          · exact .inr ⟨file, same ▸ Function.update_self .., same, rfl⟩
          · exact .inl (Function.update_of_ne same ..)
      | false =>
          cases taken
          exact ⟨.inr (.inl rfl), fun object => .inl rfl⟩
    · cases taken
    · cases taken
  · rintro here objects after (ready | failed | ⟨stored, file', holds, allowed'⟩) puts
    · exact .inl ready
    · exact .inr (.inl failed)
    · refine .inr (.inr ⟨stored, ?_⟩)
      rcases puts object with same | put
      · exact ⟨file', same.trans holds, allowed'⟩
      · exact put
  · rintro here objects code (rfl | rfl | ⟨rfl, holds⟩) exits zero
    · cases exits
    · have failed : code = 64 := eq_of_beq exits
      omega
    · exact holds

/-- Three files, two of which have the same first line. -/
def linedTree : Listing :=
  .entry "x".toList { stat := ⟨false, 1, ⟨7, 0⟩⟩, rctime := none } .nil
    (.entry "a\nb".toList { stat := ⟨false, 2, ⟨7, 0⟩⟩, rctime := none } .nil
      (.entry "a\nc".toList { stat := ⟨false, 3, ⟨7, 0⟩⟩, rctime := none } .nil .nil))

/-- The way to the file with a name of one line. -/
def plainRoute : Route := ⟨[], "x".toList, { stat := ⟨false, 1, ⟨7, 0⟩⟩, rctime := none }⟩

/-- The snapshot of `linedTree`. -/
def linedRoot : CString := createSnapPath "/f".toList 42 ⟨7, 0⟩

def linedFiles : List File := linedTree.routes.map (Route.file linedRoot)

/-- A daemon that puts into the bucket `b` with two scripts. -/
def s3Daemon : State :=
  .start (Syncer.new plainTokens 2097152 1024
    { nproc := 2, execBin := "/s3wrap.sh".toList, execFlags := "b".toList })

/-- One pass of the loop in a script. -/
def onePass (index : Nat) : List (Choice ⊕ ProgramEvent (S3WrapEvent Bool)) :=
  [.inr ⟨index, .call⟩, .inr ⟨index, .step true⟩, .inr ⟨index, .returned 0⟩]

/-- The scripts take turns. -/
def uploadRun : List (Choice ⊕ ProgramEvent (S3WrapEvent Bool)) :=
  [.inl (.sync linedFiles linedFiles), .inl (.fork 11), .inl (.fork 12),
    .inl (.child 0 .resetSigint), .inl (.child 0 (.exec [])), .inl (.child 1 .resetSigint),
    .inl (.child 1 (.exec []))] ++ onePass 0 ++ onePass 1 ++ onePass 0 ++
    [.inl (.child 1 (.exit 0)), .inl (.child 0 (.exit 0)), .inl (.wait 0 true),
      .inl (.wait 1 true), .inl .afterRound]

theorem uploaded_of_uploadRun : ∃ both : Observed State (Uploads SimpleS3cmd),
    both.state.control = .synced ∧
    both.record.objects "s3://b/x".toList = some "/f/.snap/42snapshot7.0/./x".toList := by
  have executed : (((uploadObserver simpleS3cmd fun _ => none).watch (syncMachine 4)).run
      (scripted simpleS3cmd) ⟨s3Daemon, (uploadObserver simpleS3cmd fun _ => none).start s3Daemon⟩
      uploadRun).any (fun both =>
        decide (both.state.control = .synced ∧ both.state.queue = linedFiles ∧
          both.state.syncer.garbage = ["b".toList] ∧
          both.state.syncer.destinations.names = [[]])) = true := by
    decide +kernel
  obtain ⟨both, reachable, ended⟩ :=
    Machine.exists_of_run (by exact ⟨⟨_, _, _, _, rfl⟩, rfl⟩) executed
  obtain ⟨synced, queue, garbage, names⟩ := of_decide_eq_true ended
  have queued : ∀ file ∈ both.state.queue, ∃ route ∈ linedTree.routes,
      route.attributes.stat.isDir = false ∧ route.file linedRoot = file := by
    rw [queue]
    intro file member
    obtain ⟨route, listed, rfl⟩ := List.mem_map.mp member
    exact ⟨route, listed, (by decide : ∀ route ∈ linedTree.routes,
      route.attributes.stat.isDir = false) route listed, rfl⟩
  obtain ⟨other, member, _, same, holds⟩ := (uploaded_of_reachable putsObjects_simpleS3cmd
    reachable ⟨garbage, names⟩ synced (by decide) (by decide) (by decide) (by decide) (by decide)
    queued).1 plainRoute (by decide) rfl (by rw [queue]; exact List.mem_map_of_mem (by decide))
  have alone : ∀ other ∈ linedTree.routes,
      firstLine other.relative = firstLine plainRoute.relative → other = plainRoute := by
    decide
  have object : s3Object "b".toList (firstLine plainRoute.relative) = "s3://b/x".toList := by
    decide
  have path : (plainRoute.file linedRoot).path = "/f/.snap/42snapshot7.0/./x".toList := by
    decide +kernel
  rw [alone other member same, object] at holds
  exact ⟨both, synced, holds.trans (congrArg some path)⟩

end CephGeoRep
