import Nikss.CString

/-! # Listing a pipeline's objects

`nikss_pipeline_objects_list_get_next_object` reads the pipeline's maps directory entry
by entry and returns the next regular file whose name `is_valid_object_name` accepts,
with one trailing `_prefixes` or `_actions` removed. `is_valid_object_name` refuses the
reserved names and the prefix `ebpf_`; a name with none of the implementation suffixes is
an object unless it holds the partition infix `_tuple_`; a name with one is an object when
the suffix is `_prefixes` or `_actions`, or when the directory holds the name with a
further suffix appended.

The directory stream is the list of the entries `readdir` has yet to return, in its
order, and `access` on a path of the directory asks whether an entry has that name. A
directory entry's name has at most 255 bytes, so neither the 512-byte path buffer nor the
name buffer of the object truncates it, and the model leaves the truncation out.

The objects successive calls return are the accepted entries, renamed, in directory
order (`nextObjects_eq`). On a directory that holds a table and its default-action map,
`nikssPipelineObjectsListGetNextObject_lists_table` gives the one object listed, or none.
-/

namespace Nikss

/-- `struct dirent`: the name, and whether the type is `DT_REG`. -/
structure Dirent where
  dName : String
  regular : Bool
  deriving DecidableEq, Repr

/-- Modelled from the spec: `str_ends_with`, whether `str` ends with `suffix`. -/
def strEndsWith (str suffix : String) : Bool := suffix.toList.isSuffixOf str.toList

/-- Modelled from the spec: `remove_suffix_from_str`, which cuts `suffix` off the end of
`str` when `str` ends with it, and tells whether it did. -/
def removeSuffixFromStr (str suffix : String) : Bool × String :=
  if strEndsWith str suffix then (true, ⟨str.toList.take (str.length - suffix.length)⟩)
  else (false, str)

/-- `reserved_names` of `is_valid_object_name`. -/
def reservedNames : List String :=
  ["clone_session_tbl", "clone_session_tbl_inner", "multicast_grp_tbl", "multicast_grp_tbl_inner",
    "hdr_md_cpumap", "xdp2tc_shared_map", "xdp2tc_cpumap", "tx_port", "crc_lookup_tbl"]

/-- `reserved_prefixes` of `is_valid_object_name`. -/
def reservedPrefixes : List String := ["ebpf_"]

/-- `suffixes` of `is_valid_object_name`, the implementation suffixes. -/
def suffixes : List String :=
  ["_defaultAction", "_prefixes", "_tuple", "_tuples_map", "_groups_inner", "_groups",
    "_defaultActionGroup", "_actions"]

/-- `ternary_tuple_infix` of `is_valid_object_name`. -/
def ternaryTupleInfix : String := "_tuple_"

/-- `access(path, F_OK) == 0` for the path of `name` in the directory. -/
def accessEntry (baseObjects : List Dirent) (name : String) : Bool :=
  baseObjects.any (·.dName = name)

/-- `is_valid_object_name`; each `for` loop that returns on its first hit is an `any`. -/
def isValidObjectName (baseObjects : List Dirent) (name : String) (allowedSuffixes : List String) :
    Bool :=
  if reservedNames.any (· = name) then false
  else if reservedPrefixes.any (·.toList.isPrefixOf name.toList) then false
  else if !suffixes.any (strEndsWith name) then (strstr name.toList ternaryTupleInfix.toList).isNone
  else if allowedSuffixes.any (strEndsWith name) then true
  else suffixes.any fun suffix => accessEntry baseObjects (name ++ suffix)

/-- The loop of `nikss_pipeline_objects_list_get_next_object` that removes one allowed
suffix. -/
def removeOneSuffix : List String → String → String
  | [], name => name
  | suffix :: allowedSuffixes, name =>
    match removeSuffixFromStr name suffix with
    | (true, stripped) => stripped
    | (false, _) => removeOneSuffix allowedSuffixes name

/-- `nikss_pipeline_objects_list_t`: the directory at `base_objects_path`, as `access`
sees it, and the stream `opendir` returned on it, as the entries `readdir` has yet to
return (`none` for a NULL stream). -/
structure NikssPipelineObjectsList where
  baseObjects : List Dirent
  directory : Option (List Dirent)
  deriving DecidableEq, Repr

/-- The `while ((file = readdir(...)) != NULL)` loop: the name of the next object and the
entries after its file. -/
def nextObjectLoop (baseObjects : List Dirent) (allowedSuffixes : List String) :
    List Dirent → Option String × List Dirent
  | [] => (none, [])
  | file :: files =>
    if !file.regular then nextObjectLoop baseObjects allowedSuffixes files
    else if !isValidObjectName baseObjects file.dName allowedSuffixes then
      nextObjectLoop baseObjects allowedSuffixes files
    else (some (removeOneSuffix allowedSuffixes file.dName), files)

/-- `nikss_pipeline_objects_list_get_next_object`: the object's name and the list with its
stream moved on. -/
def nikssPipelineObjectsListGetNextObject (list : NikssPipelineObjectsList) :
    Option String × NikssPipelineObjectsList :=
  match list.directory with
  | none => (none, list)
  | some files =>
    let allowedSuffixes := ["_prefixes", "_actions"]
    let (object, files) := nextObjectLoop list.baseObjects allowedSuffixes files
    (object, { list with directory := some files })

/-- A caller's `calls` successive calls of `nikss_pipeline_objects_list_get_next_object`:
what each returned, in order, and the list after the last one. -/
def nextObjects : Nat → NikssPipelineObjectsList → List (Option String) × NikssPipelineObjectsList
  | 0, list => ([], list)
  | calls + 1, list =>
    let (object, list) := nikssPipelineObjectsListGetNextObject list
    let (objects, list) := nextObjects calls list
    (object :: objects, list)

/-! ## The run of calls -/

/-- The objects a stream holds: its regular files whose names are accepted, renamed, in
stream order. -/
def acceptedObjects (baseObjects : List Dirent) (allowedSuffixes : List String) (files : List Dirent) :
    List String :=
  files.filterMap fun file =>
    if file.regular ∧ isValidObjectName baseObjects file.dName allowedSuffixes then
      some (removeOneSuffix allowedSuffixes file.dName)
    else none

/-- The loop returns the first object of the stream, and the stream after it holds the
others; a stream without objects is read to its end. -/
theorem nextObjectLoop_spec (baseObjects : List Dirent) (allowedSuffixes : List String) :
    ∀ files : List Dirent,
      match acceptedObjects baseObjects allowedSuffixes files with
      | [] => nextObjectLoop baseObjects allowedSuffixes files = (none, [])
      | object :: objects => ∃ rest, nextObjectLoop baseObjects allowedSuffixes files = (some object, rest) ∧
          acceptedObjects baseObjects allowedSuffixes rest = objects
  | [] => rfl
  | file :: files => by
    have rest := nextObjectLoop_spec baseObjects allowedSuffixes files
    by_cases accepted : file.regular ∧ isValidObjectName baseObjects file.dName allowedSuffixes
    · simp only [acceptedObjects, List.filterMap_cons, if_pos accepted] at rest ⊢
      exact ⟨files, by simp [nextObjectLoop, accepted.1, accepted.2], rfl⟩
    · have skipped : nextObjectLoop baseObjects allowedSuffixes (file :: files) =
          nextObjectLoop baseObjects allowedSuffixes files := by
        by_cases regular : file.regular <;> simp_all [nextObjectLoop]
      simp only [acceptedObjects, List.filterMap_cons, if_neg accepted] at rest ⊢
      rwa [skipped]

/-- From any stream, the calls return its objects, one a call, and then NULL with the
stream at its end. -/
theorem nextObjects_eq (baseObjects : List Dirent) :
    ∀ (objects : List String) (files : List Dirent),
      acceptedObjects baseObjects ["_prefixes", "_actions"] files = objects →
      nextObjects (objects.length + 1) ⟨baseObjects, some files⟩ =
        (objects.map some ++ [none], ⟨baseObjects, some []⟩)
  | [], files, accepted => by
    have loop := nextObjectLoop_spec baseObjects ["_prefixes", "_actions"] files
    rw [accepted] at loop
    simp [nextObjects, nikssPipelineObjectsListGetNextObject, loop]
  | object :: objects, files, accepted => by
    have loop := nextObjectLoop_spec baseObjects ["_prefixes", "_actions"] files
    rw [accepted] at loop
    obtain ⟨rest, loop, after⟩ := loop
    rw [List.length_cons, nextObjects]
    simp [nikssPipelineObjectsListGetNextObject, loop, nextObjects_eq baseObjects objects rest after]

/-! ## A table and its default-action map -/

/-- A suffix no longer than the tail of a name is a suffix of the name exactly when it is
one of the tail. -/
theorem strEndsWith_append (name tail suffix : String) (short : suffix.length ≤ tail.length) :
    strEndsWith (name ++ tail) suffix = strEndsWith tail suffix := by
  rw [strEndsWith, strEndsWith, Bool.eq_iff_iff, List.isSuffixOf_iff_suffix, List.isSuffixOf_iff_suffix]
  exact ⟨fun whole => List.suffix_of_suffix_length_le whole (List.suffix_append name.data tail.data) short,
    fun own => own.trans (List.suffix_append _ _)⟩

theorem strEndsWith_self (name tail : String) : strEndsWith (name ++ tail) tail := by
  rw [strEndsWith, List.isSuffixOf_iff_suffix]
  exact List.suffix_append name.data tail.data

/-- The entries of a maps directory that holds the table `name` and its default-action map. -/
def tableDirectory (name : String) : List Dirent :=
  [⟨".", false⟩, ⟨"..", false⟩, ⟨name, true⟩, ⟨name ++ "_defaultAction", true⟩]

section Table

variable {name : String} {entries : List Dirent} (listed : entries.Perm (tableDirectory name))
include listed

/-- `access` finds exactly the four entries of the directory. -/
theorem accessEntry_tableDirectory (path : String) :
    accessEntry entries path = (tableDirectory name).any (·.dName = path) := by
  rw [accessEntry, Bool.eq_iff_iff, List.any_eq_true, List.any_eq_true]
  exact ⟨fun ⟨entry, mem, named⟩ => ⟨entry, listed.mem_iff.mp mem, named⟩,
    fun ⟨entry, mem, named⟩ => ⟨entry, listed.mem_iff.mpr mem, named⟩⟩

/-- The default-action map is no object: it ends with `_defaultAction`, which is not
allowed, and the directory holds no name that extends it. -/
theorem isValidObjectName_defaultAction :
    isValidObjectName entries (name ++ "_defaultAction") ["_prefixes", "_actions"] = false := by
  have notReserved : ¬ reservedNames.any (· = name ++ "_defaultAction") := by
    have unlike : ∀ reserved ∈ reservedNames, ¬ strEndsWith reserved "_defaultAction" := by decide
    simp only [List.any_eq_true, decide_eq_true_eq, not_exists, not_and]
    exact fun reserved mem same => unlike reserved mem (same ▸ strEndsWith_self _ _)
  have noneLonger : ¬ suffixes.any fun suffix => accessEntry entries (name ++ "_defaultAction" ++ suffix) := by
    have long : ∀ suffix ∈ suffixes, 6 ≤ suffix.length := by decide
    simp only [accessEntry_tableDirectory listed, List.any_eq_true, decide_eq_true_eq, not_exists,
      not_and, tableDirectory, List.mem_cons, List.mem_singleton, List.not_mem_nil, or_false]
    intro suffix mem entry named same
    have lengths := congrArg String.length same
    have := long suffix mem
    have : "_defaultAction".length = 14 := rfl
    rcases named with rfl | rfl | rfl | rfl <;>
      simp only [String.length_append, show ".".length = 1 from rfl, show "..".length = 2 from rfl] at lengths <;>
      omega
  have ends : suffixes.any (strEndsWith (name ++ "_defaultAction")) := 
    List.any_eq_true.mpr ⟨_, List.mem_cons_self _ _, strEndsWith_self _ _⟩
  have notAllowed : ¬ ["_prefixes", "_actions"].any (strEndsWith (name ++ "_defaultAction")) := by
    simp only [List.any_cons, List.any_nil, Bool.or_false, strEndsWith_append name "_defaultAction" "_prefixes" (by decide),
      strEndsWith_append name "_defaultAction" "_actions" (by decide)]
    decide
  simp only [isValidObjectName, notReserved, ends, notAllowed, noneLonger, if_false, Bool.not_true]
  split_ifs <;> rfl

variable (notReserved : name ∉ reservedNames) (notPrefixed : ¬ "ebpf_".toList <+: name.toList)
include notReserved notPrefixed

/-- The table is an object when its name ends with an implementation suffix, whose check
the default-action map passes, or does not hold the partition infix. -/
theorem isValidObjectName_table :
    isValidObjectName entries name ["_prefixes", "_actions"] =
      (suffixes.any (strEndsWith name) || (strstr name.toList ternaryTupleInfix.toList).isNone) := by
  have reserved : ¬ reservedNames.any (· = name) := by simpa using notReserved
  have prefixed : ¬ reservedPrefixes.any (·.toList.isPrefixOf name.toList) := by
    simpa [reservedPrefixes] using notPrefixed
  have extended : suffixes.any fun suffix => accessEntry entries (name ++ suffix) :=
    List.any_eq_true.mpr ⟨"_defaultAction", List.mem_cons_self _ _,
      by rw [accessEntry_tableDirectory listed]; simp [tableDirectory]⟩
  simp only [isValidObjectName, reserved, prefixed, if_false]
  by_cases hasSuffix : suffixes.any (strEndsWith name) <;> simp [hasSuffix, extended]

/-- Whatever the order of the entries, the table is the only object the directory can
hold. -/
theorem acceptedObjects_tableDirectory :
    acceptedObjects entries ["_prefixes", "_actions"] entries =
      if suffixes.any (strEndsWith name) || (strstr name.toList ternaryTupleInfix.toList).isNone
      then [removeOneSuffix ["_prefixes", "_actions"] name] else [] := by
  have perm := listed.filterMap fun file =>
    if file.regular ∧ isValidObjectName entries file.dName ["_prefixes", "_actions"] then
      some (removeOneSuffix ["_prefixes", "_actions"] file.dName)
    else none
  simp only [tableDirectory, List.filterMap_cons, List.filterMap_nil, Bool.false_eq_true, false_and,
    if_false, true_and, isValidObjectName_table listed notReserved notPrefixed,
    isValidObjectName_defaultAction listed] at perm
  split_ifs at perm ⊢ with valid
  · exact List.perm_singleton.mp perm
  · exact perm.eq_nil

end Table

/-- On a maps directory that holds a table and its default-action map, with `.` and `..`
and in any order, the calls list one object, the table with a trailing `_prefixes` or
`_actions` removed, when its name ends with an implementation suffix or does not hold
`_tuple_`, and no object otherwise; then NULL. -/
theorem nikssPipelineObjectsListGetNextObject_lists_table {name : String} {entries : List Dirent}
    (listed : entries.Perm (tableDirectory name)) (notReserved : name ∉ reservedNames)
    (notPrefixed : ¬ "ebpf_".toList <+: name.toList) :
    let objects := if suffixes.any (strEndsWith name) || (strstr name.toList ternaryTupleInfix.toList).isNone
      then [removeOneSuffix ["_prefixes", "_actions"] name] else []
    nextObjects (objects.length + 1) ⟨entries, some entries⟩ =
      (objects.map some ++ [none], ⟨entries, some []⟩) :=
  nextObjects_eq entries _ entries (acceptedObjects_tableDirectory listed notReserved notPrefixed)

/-- `nikssPipelineObjectsListGetNextObject_lists_table` on the table `t_actions`. -/
theorem nikssPipelineObjectsListGetNextObject_lists_table_on_actions :
    (tableDirectory "t_actions").Perm (tableDirectory "t_actions") ∧ "t_actions" ∉ reservedNames ∧
      ¬ "ebpf_".toList <+: "t_actions".toList ∧
      let objects := if suffixes.any (strEndsWith "t_actions") ||
          (strstr "t_actions".toList ternaryTupleInfix.toList).isNone
        then [removeOneSuffix ["_prefixes", "_actions"] "t_actions"] else []
      nextObjects (objects.length + 1) ⟨tableDirectory "t_actions", some (tableDirectory "t_actions")⟩ =
        (objects.map some ++ [none], ⟨tableDirectory "t_actions", some []⟩) :=
  ⟨.refl _, by decide, by decide,
    nikssPipelineObjectsListGetNextObject_lists_table (.refl _) (by decide) (by decide)⟩

/-- A table whose name ends with `_actions` is listed without it, and one whose name holds
`_tuple_` and no implementation suffix is not listed at all. -/
theorem nikssPipelineObjectsListGetNextObject_renames_and_drops_tables :
    (nextObjects 2 ⟨tableDirectory "t_actions", some (tableDirectory "t_actions")⟩).1 = [some "t", none] ∧
      (nextObjects 1 ⟨tableDirectory "a_tuple_b", some (tableDirectory "a_tuple_b")⟩).1 = [none] := by
  decide
end Nikss
