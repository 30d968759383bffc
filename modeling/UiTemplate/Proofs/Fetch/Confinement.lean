import UiTemplate.Fetch.Directory
import UiTemplate.Proofs.Fetch.Walk

/-!
Which file a request below a directory is for. A request with a component that
goes up is for none. Any other names the files that may be meant, at most two,
and the first of them that is there is the one. Such a file lies below the
directory in two senses: its path is the path of the directory and then names that
only lead down, and the walk along it passes the place that the directory is. The
directory itself may be anywhere: its path may start at the top of all files or at
the working directory, and it may go up.
-/

namespace UiTemplate

namespace FileTree

/-- A suffix without a slash becomes part of the last component. -/
theorem components_append_of_not_mem {suffix : String} (h : '/' ∉ suffix.toList) (path : String) :
    ∃ front last, components path = front ++ [last] ∧
      components (path ++ suffix) = front ++ [last ++ suffix] := by
  obtain ⟨front, last, hpath, happend⟩ := Text.splitOn_append_of_not_mem h path.toList
  refine ⟨front.map String.ofList, String.ofList last, ?_, ?_⟩
  · simp [components, hpath]
  · simp [components, happend, String.ofList_append]

end FileTree

namespace Directory

open FileTree (components names isName Leads)

variable {files : FileSystem} {target : FileTree} {root request path found name : String}

/-- The path of a directory itself. An empty one is the working directory. -/
def basePath (root : String) : String :=
  if root.isEmpty then "." else root

/-- What the directory that requests are below is. -/
def base (files : FileSystem) (root : String) : Except FileError FileTree :=
  files.find (basePath root)

def withoutSlashes (request : String) : String :=
  String.ofList (request.toList.dropWhile (· == '/'))

/-- The files that a request may be for, in the order in which they are tried. -/
def candidates (root path : String) : List String :=
  if path.isEmpty then [join root "index.json"]
  else if isJsonName (join root path) then [join root path, join root (path ++ ".json")]
  else [join root (path ++ ".json")]

theorem mem_splitOn_dropWhile {text piece : List Char} (hpiece : piece ≠ []) :
    piece ∈ Text.splitOn '/' (text.dropWhile (· == '/')) ↔ piece ∈ Text.splitOn '/' text := by
  induction text with
  | nil => rfl
  | cons c text ih =>
    by_cases h : c = '/'
    · subst h
      rw [List.dropWhile_cons_of_pos (by rfl), ih, Text.splitOn, if_pos rfl, List.mem_cons]
      simp [hpiece]
    · rw [List.dropWhile_cons_of_neg (by simpa using h)]

/-- Slashes in front of a request name nothing. -/
theorem mem_components_withoutSlashes (hname : name ≠ "") :
    name ∈ components (withoutSlashes request) ↔ name ∈ components request := by
  have hchars : ∀ path : String,
      name ∈ components path ↔ name.toList ∈ Text.splitOn '/' path.toList := by
    intro path
    rw [components, List.mem_map]
    constructor
    · rintro ⟨piece, hpiece, rfl⟩
      rwa [String.toList_ofList]
    · intro hpiece
      exact ⟨_, hpiece, String.ofList_toList⟩
  rw [hchars, hchars, withoutSlashes, String.toList_ofList]
  apply mem_splitOn_dropWhile
  simpa using hname

theorem head?_withoutSlashes (request : String) :
    (withoutSlashes request).toList.head? ≠ some '/' := by
  rw [withoutSlashes, String.toList_ofList]
  intro h
  have hfirst := List.head?_dropWhile_not (· == '/') request.toList
  rw [h] at hfirst
  cases hfirst

/-- However many slashes there are in front, the request is the same. -/
theorem withoutSlashes_slashes_append (count : Nat) (request : String) :
    withoutSlashes (String.ofList (List.replicate count '/') ++ request) =
      withoutSlashes request := by
  rw [withoutSlashes, withoutSlashes, String.toList_append, String.toList_ofList]
  congr 1
  induction count with
  | zero => rfl
  | succ count ih => rw [List.replicate_succ, List.cons_append, List.dropWhile_cons_of_pos rfl, ih]

/-- A request is refused for a step upwards anywhere in it, and for nothing else. -/
theorem relative?_eq (request : String) : relative? request =
    if ".." ∈ components request then none else some (withoutSlashes request) := by
  have hup : ".." ∈ components (withoutSlashes request) ↔ ".." ∈ components request :=
    mem_components_withoutSlashes (by decide)
  have hrequest : String.ofList (request.toList.dropWhile (· == '/')) = withoutSlashes request :=
    rfl
  simp only [relative?, List.contains_iff_mem, hrequest, hup]

theorem relative?_eq_none_iff : relative? request = none ↔ ".." ∈ components request := by
  rw [relative?_eq]
  split
  · next hup => exact ⟨fun _ => hup, fun _ => rfl⟩
  · next hup => exact ⟨fun hsome => absurd hsome (Option.some_ne_none _), fun h => absurd h hup⟩

/-- The first file among the candidates. -/
theorem locate_eq (files : FileSystem) (root request : String) : locate files root request =
    if ".." ∈ components request then none
    else (candidates root (withoutSlashes request)).find? files.isFile := by
  rw [locate, relative?_eq]
  by_cases hup : ".." ∈ components request
  · rw [if_pos hup, if_pos hup]
  rw [if_neg hup, if_neg hup, candidates]
  simp only
  split
  · rw [List.find?_singleton]
  · cases hjson : isJsonName (join root (withoutSlashes request)) with
    | false => simp only [Bool.and_false, Bool.false_eq_true, if_false, List.find?_singleton]
    | true =>
      rw [Bool.and_true, if_pos rfl, List.find?_cons]
      cases files.isFile (join root (withoutSlashes request)) with
      | false => exact List.find?_singleton.symm
      | true => rfl

/-! ### Names that say JSON -/

theorem extension?_of_not_mem (h : '.' ∉ name.toList) : extension? name = none := by
  rw [extension?, Text.splitOn_of_not_mem h]
  split
  · rfl
  · rfl

/-- The last dot in a name begins the extension, unless there is nothing in front of it. -/
theorem extension?_append {stem suffix : List Char} (hsuffix : '.' ∉ suffix)
    (hname : String.ofList (stem ++ '.' :: suffix) ≠ "..") :
    extension? (String.ofList (stem ++ '.' :: suffix)) =
      if stem = [] then none else some (String.ofList suffix) := by
  rw [extension?, if_neg hname, String.toList_ofList, Text.splitOn_append,
    Text.splitOn_of_not_mem hsuffix, List.reverse_append, List.reverse_singleton,
    List.singleton_append]
  by_cases hstem : stem = []
  · subst hstem
    rfl
  · rw [if_neg hstem]
    cases hpieces : (Text.splitOn '.' stem).reverse with
    | nil => exact absurd (List.reverse_eq_nil_iff.1 hpieces) (Text.splitOn_ne_nil _ _)
    | cons before earlier =>
      have hmore : (before.isEmpty && earlier.isEmpty) = false := by
        rw [Bool.eq_false_iff]
        intro hempty
        obtain ⟨rfl, rfl⟩ : before = [] ∧ earlier = [] := by simpa using hempty
        exact hstem (Text.splitOn_eq_nil_singleton_iff.1 (List.reverse_eq_iff.1 hpieces))
      simp only [hmore]
      rfl

theorem not_mem_json : '/' ∉ ".json".toList := by decide

theorem append_json_ne_up (stem : String) : stem ++ ".json" ≠ ".." := by
  intro h
  have hlength := congrArg String.length h
  rw [String.length_append] at hlength
  have hfive : ".json".length = 5 := rfl
  have htwo : "..".length = 2 := rfl
  omega

theorem append_json (stem : List Char) :
    String.ofList stem ++ ".json" = String.ofList (stem ++ '.' :: "json".toList) := by
  rw [String.ofList_append]
  rfl

/-- A name has this extension if it ends in it and something is in front. -/
theorem extension?_eq_json_iff :
    extension? name = some "json" ↔ ∃ stem, stem ≠ "" ∧ name = stem ++ ".json" := by
  constructor
  · intro h
    by_cases hdot : '.' ∈ name.toList
    · obtain ⟨stem, suffix, hchars, hsuffix⟩ := Text.exists_append_cons_of_mem hdot
      obtain rfl : name = String.ofList (stem ++ '.' :: suffix) := by
        rw [← hchars, String.ofList_toList]
      have hname : String.ofList (stem ++ '.' :: suffix) ≠ ".." := by
        intro heq
        rw [heq] at h
        cases h
      rw [extension?_append hsuffix hname] at h
      split at h
      · cases h
      · next hstem =>
        have hjson : suffix = "json".toList := by
          rw [← Option.some.inj h, String.toList_ofList]
        refine ⟨String.ofList stem, by simpa using hstem, ?_⟩
        rw [append_json, hjson]
    · rw [extension?_of_not_mem hdot] at h
      cases h
  · rintro ⟨stem, hstem, rfl⟩
    have hchars := append_json stem.toList
    rw [String.ofList_toList] at hchars
    have hname : String.ofList (stem.toList ++ '.' :: "json".toList) ≠ ".." := by
      rw [← hchars]
      exact append_json_ne_up stem
    have hextension : extension? (String.ofList (stem.toList ++ '.' :: "json".toList)) = _ :=
      extension?_append (by decide) hname
    rw [hchars, hextension, if_neg (by simpa using hstem), String.ofList_toList]

theorem isJsonName_iff : isJsonName path = true ↔
    ∃ stem, stem ≠ "" ∧ (names path).getLast? = some (stem ++ ".json") := by
  have hname : fileName? path = (names path).getLast? := rfl
  rw [isJsonName, beq_iff_eq, hname, Option.bind_eq_some_iff]
  constructor
  · rintro ⟨name, hlast, hextension⟩
    obtain ⟨stem, hstem, rfl⟩ := extension?_eq_json_iff.1 hextension
    exact ⟨stem, hstem, hlast⟩
  · rintro ⟨stem, hstem, hlast⟩
    exact ⟨_, hlast, extension?_eq_json_iff.2 ⟨stem, hstem, rfl⟩⟩

/-! ### Below a directory -/

theorem join_of_empty (path : String) : join "" path = path := by
  rw [join, if_pos (by rfl), String.empty_append]

theorem join_of_slash (stem path : String) : join (stem ++ "/") path = stem ++ "/" ++ path := by
  rw [join, if_pos (by simp)]

theorem join_of_no_slash (hroot : root ≠ "") (hlast : root.toList.getLast? ≠ some '/')
    (path : String) : join root path = root ++ "/" ++ path := by
  rw [join, if_neg (by simp [hroot, hlast])]

theorem exists_slash (h : root.toList.getLast? = some '/') : ∃ stem, root = stem ++ "/" := by
  obtain ⟨stem, hstem⟩ := List.getLast?_eq_some_iff.1 h
  refine ⟨String.ofList stem, ?_⟩
  rw [← String.ofList_toList (s := root), hstem, String.ofList_append]

theorem basePath_of_ne_empty (hroot : root ≠ "") : basePath root = root := by
  rw [basePath, if_neg (by simpa using hroot)]

/-- A directory's components come first, except for a last one that is no name: what
a slash at the end leaves, or the dot of an empty path. -/
theorem components_join (root : String) :
    ∃ front, (components (basePath root) = front ∨
        ∃ last, isName last = false ∧ components (basePath root) = front ++ [last]) ∧
      ∀ path, components (join root path) = front ++ components path := by
  by_cases hroot : root = ""
  · subst hroot
    refine ⟨[], .inr ⟨".", rfl, rfl⟩, ?_⟩
    intro path
    rw [join_of_empty, List.nil_append]
  rw [basePath_of_ne_empty hroot]
  by_cases hlast : root.toList.getLast? = some '/'
  · obtain ⟨stem, rfl⟩ := exists_slash hlast
    refine ⟨components stem, .inr ⟨"", rfl, ?_⟩, ?_⟩
    · rw [← String.append_empty (s := stem ++ "/"), FileTree.components_append]
      rfl
    · intro path
      rw [join_of_slash, FileTree.components_append]
  · refine ⟨components root, .inl rfl, ?_⟩
    intro path
    rw [join_of_no_slash hroot hlast, FileTree.components_append]

theorem names_basePath (root : String) : names (basePath root) = names root := by
  by_cases hroot : root = ""
  · subst hroot
    rfl
  · rw [basePath_of_ne_empty hroot]

/-- What is joined to a root leads on from where the root leads. -/
theorem names_join (root path : String) : names (join root path) = names root ++ names path := by
  obtain ⟨front, hfront, hjoin⟩ := components_join root
  rw [names, hjoin, List.filter_append, ← names_basePath root, names, names]
  rcases hfront with hfront | ⟨last, hlast, hfront⟩
  · rw [hfront]
  · rw [hfront, List.filter_append]
    simp [hlast]

theorem getLast?_components_join (root path : String) :
    (components (join root path)).getLast? = (components path).getLast? := by
  obtain ⟨front, _, hjoin⟩ := components_join root
  have hlast : (components path).getLast?.isSome := by
    simpa using FileTree.components_ne_nil path
  rw [hjoin, List.getLast?_append, Option.or_of_isSome hlast]

/-- The path of a directory is the front of the paths below it. -/
theorem exists_append_join (root path : String) : ∃ rest, join root path = root ++ rest := by
  rw [join]
  split
  · exact ⟨path, rfl⟩
  · exact ⟨"/" ++ path, String.append_assoc⟩

/-- A path below a directory starts where the path of the directory does. -/
theorem head?_join (hpath : path.toList.head? ≠ some '/') (root : String) :
    (join root path).toList.head? = some '/' ↔ (basePath root).toList.head? = some '/' := by
  by_cases hroot : root = ""
  · subst hroot
    have hdot : (basePath "").toList.head? = some '.' := rfl
    rw [join_of_empty, hdot]
    exact iff_of_false hpath (by decide)
  · obtain ⟨rest, hrest⟩ := exists_append_join root path
    have hfirst : root.toList.head?.isSome := by simpa using hroot
    rw [hrest, basePath_of_ne_empty hroot, String.toList_append, List.head?_append, Option.or_of_isSome hfirst]

/-- Whether it is named from the top or from the working directory, a root keeps its way
when something is joined to it. -/
theorem fromTop_join (files : FileSystem) (root : String) (hpath : path.toList.head? ≠ some '/') :
    ∃ front, (files.fromTop (basePath root) = front ∨
        ∃ last, isName last = false ∧ files.fromTop (basePath root) = front ++ [last]) ∧
      files.fromTop (join root path) = front ++ components path := by
  obtain ⟨front, hfront, hjoin⟩ := components_join root
  simp only [FileSystem.fromTop, head?_join hpath, hjoin]
  split
  · exact ⟨front, hfront, rfl⟩
  · refine ⟨files.workingDirectory ++ front, ?_, (List.append_assoc _ _ _).symm⟩
    rcases hfront with hfront | ⟨last, hlast, hfront⟩
    · exact .inl (by rw [hfront])
    · exact .inr ⟨last, hlast, by rw [hfront, List.append_assoc]⟩

/-- A directory is found if the walk to it arrives: its path is within the limits
that the path of what is below it is within. -/
theorem base_eq_ok {place : FileTree} (h : files.find (join root path) = .ok target)
    (hwalk : FileTree.walk [] files.tree (files.fromTop (basePath root)) = .ok place) :
    base files root = .ok place := by
  obtain ⟨_, hnul, hsize, _⟩ := FileSystem.find_eq_ok_iff.1 h
  rw [base, FileSystem.find_eq_ok_iff]
  by_cases hroot : root = ""
  · subst hroot
    exact ⟨by decide, by decide, by decide, hwalk⟩
  · obtain ⟨rest, hrest⟩ := exists_append_join root path
    rw [basePath_of_ne_empty hroot] at hwalk ⊢
    refine ⟨hroot, ?_, ?_, hwalk⟩
    · intro hmem
      exact hnul (by rw [hrest, String.toList_append]; exact List.mem_append_left _ hmem)
    · rw [hrest, String.utf8ByteSize_append] at hsize
      omega

/-- The walk to a file below a directory comes by the directory and goes down from
there. -/
theorem leads_of_find (hpath : path.toList.head? ≠ some '/') (hup : ".." ∉ components path)
    (h : files.find (join root path) = .ok target) :
    ∃ place, base files root = .ok place ∧ place.Leads (names path) target := by
  obtain ⟨_, _, _, hwalk⟩ := FileSystem.find_eq_ok_iff.1 h
  obtain ⟨front, hfront, hjoin⟩ := fromTop_join files root hpath
  rw [hjoin] at hwalk
  obtain ⟨above, place, hplace, hback⟩ := FileTree.exists_place hwalk
  refine ⟨place, base_eq_ok h ?_, FileTree.leads_of_walk hup hback⟩
  rcases hfront with hfront | ⟨last, hlast, hfront⟩
  · rw [hfront, ← List.append_nil front, hplace, FileTree.walk]
  · -- The component at the end is passed because the place is a directory
    obtain ⟨name, pieces, hpieces⟩ := List.exists_cons_of_ne_nil (FileTree.components_ne_nil path)
    rw [hpieces] at hback
    obtain ⟨_, _, hmove, _⟩ := FileTree.walk_cons_eq_ok hback
    obtain ⟨entries, rfl, _⟩ := FileTree.move_eq_ok hmove
    rw [hfront, hplace, FileTree.walk_cons, FileTree.move_of_not_isName hlast]
    rfl

def EndsInJson (path : String) : Prop :=
  ∃ stem, (components path).getLast? = some (stem ++ ".json")

theorem endsInJson_append (path : String) : EndsInJson (path ++ ".json") := by
  obtain ⟨front, last, _, happend⟩ :=
    FileTree.components_append_of_not_mem not_mem_json path
  exact ⟨last, by rw [happend, List.getLast?_concat]⟩

/-- A file whose name says JSON has a path that ends in it, as no slash or dot can
follow the name of a file. -/
theorem endsInJson_of_isFile (hfile : files.isFile path = true) (hjson : isJsonName path = true)
    (hup : (components path).getLast? ≠ some "..") : EndsInJson path := by
  obtain ⟨content, hfind⟩ := FileSystem.isFile_iff.1 hfile
  obtain ⟨_, _, _, hwalk⟩ := FileSystem.find_eq_ok_iff.1 hfind
  obtain ⟨stem, _, hstem⟩ := isJsonName_iff.1 hjson
  obtain ⟨last, hlast⟩ := Option.isSome_iff_exists.1
    (List.getLast?_isSome.2 (FileTree.components_ne_nil path))
  obtain ⟨front, hpath⟩ := List.getLast?_eq_some_iff.1 hlast
  obtain ⟨before, hbefore⟩ := FileSystem.exists_fromTop files path
  rw [hbefore, hpath, ← List.append_assoc] at hwalk
  rw [hpath, List.getLast?_concat] at hup
  rcases FileTree.isName_of_walk hwalk with rfl | hname
  · exact absurd rfl hup
  · rw [names, hpath, List.filter_append, List.filter_cons_of_pos hname, List.filter_nil,
      List.getLast?_concat] at hstem
    exact ⟨stem, by rw [hpath, List.getLast?_concat, hstem]⟩

/-- A request is for the index, for a name that has the extension, or for one
that gets it. -/
theorem candidates_cases (h : found ∈ candidates root path) :
    (path = "" ∧ found = join root "index.json") ∨
      (isJsonName (join root path) = true ∧ found = join root path) ∨
      (path ≠ "" ∧ found = join root (path ++ ".json")) := by
  rw [candidates] at h
  split at h
  · next hempty => exact .inl ⟨by simpa using hempty, List.mem_singleton.1 h⟩
  · next hempty =>
    have hne : path ≠ "" := by simpa using hempty
    split at h
    · next hjson =>
      rcases List.mem_cons.1 h with rfl | h
      · exact .inr (.inl ⟨hjson, rfl⟩)
      · exact .inr (.inr ⟨hne, List.mem_singleton.1 h⟩)
    · exact .inr (.inr ⟨hne, List.mem_singleton.1 h⟩)

/-- The path of the file found for a request is the path of the directory and
another one, which goes down to a name for JSON. -/
theorem exists_join_of_locate (h : locate files root request = some found) :
    ∃ path, found = join root path ∧ path.toList.head? ≠ some '/' ∧ ".." ∉ components path ∧
      EndsInJson found ∧ files.isFile found = true := by
  rw [locate_eq] at h
  split at h
  · cases h
  next hup =>
  rw [← mem_components_withoutSlashes (by decide)] at hup
  have hfile : files.isFile found = true := List.find?_some h
  have hhead := head?_withoutSlashes request
  rcases candidates_cases (List.mem_of_find?_eq_some h) with
    ⟨_, rfl⟩ | ⟨hjson, rfl⟩ | ⟨hne, rfl⟩
  · refine ⟨"index.json", rfl, by decide, by decide, ?_, hfile⟩
    exact ⟨"index", by rw [getLast?_components_join]; rfl⟩
  · refine ⟨_, rfl, hhead, hup, endsInJson_of_isFile hfile hjson ?_, hfile⟩
    intro hlast
    rw [getLast?_components_join] at hlast
    exact hup (List.mem_of_getLast? hlast)
  · refine ⟨_, rfl, ?_, ?_, ?_, hfile⟩
    · have hfirst : (withoutSlashes request).toList.head?.isSome := by simpa using hne
      rwa [String.toList_append, List.head?_append, Option.or_of_isSome hfirst]
    · obtain ⟨front, last, hpath, happend⟩ :=
        FileTree.components_append_of_not_mem not_mem_json (withoutSlashes request)
      rw [hpath] at hup
      rw [happend, List.mem_append, List.mem_singleton]
      rintro (hfront | hlast)
      · exact hup (List.mem_append_left _ hfront)
      · exact append_json_ne_up last hlast.symm
    · rw [EndsInJson, getLast?_components_join]
      exact endsInJson_append _

/-- No request is for a file outside of the directory. One with a component that
goes up is for none; any other is for the first file among the index of the
directory, if nothing is left without the slashes in front, or else among the path
itself, if its name says JSON, and the path with the ending. The path of the file
is that of the directory followed by names that do not go up, the last of which
has the ending; the file is found by going down from the directory along these
names. Slashes in front of a request make no difference. -/
theorem locate_confined (files : FileSystem) (root request : String) :
    (".." ∈ components request → locate files root request = none) ∧
    (".." ∉ components request →
      locate files root request = (candidates root (withoutSlashes request)).find? files.isFile) ∧
    (∀ path, isJsonName path = true ↔
      ∃ stem, stem ≠ "" ∧ (names path).getLast? = some (stem ++ ".json")) ∧
    (∀ found, locate files root request = some found →
      ∃ path place content, found = join root path ∧ names found = names root ++ names path ∧
        ".." ∉ names path ∧ EndsInJson found ∧ base files root = .ok place ∧
        place.Leads (names path) (.file content) ∧ files.find found = .ok (.file content)) ∧
    ∀ count, locate files root (String.ofList (List.replicate count '/') ++ request) =
      locate files root request := by
  refine ⟨?_, ?_, fun path => isJsonName_iff, ?_, ?_⟩
  · intro hup
    rw [locate_eq, if_pos hup]
  · intro hup
    rw [locate_eq, if_neg hup]
  · intro found hfound
    obtain ⟨path, rfl, hhead, hup, hends, hfile⟩ := exists_join_of_locate hfound
    obtain ⟨content, hfind⟩ := FileSystem.isFile_iff.1 hfile
    obtain ⟨place, hplace, hleads⟩ := leads_of_find hhead hup hfind
    refine ⟨path, place, content, rfl, names_join root path, ?_, hends, hplace, hleads, hfind⟩
    intro hmem
    exact hup (List.mem_filter.1 hmem).1
  · intro count
    have hslashes := withoutSlashes_slashes_append count request
    have hup : ".." ∈ components (String.ofList (List.replicate count '/') ++ request) ↔
        ".." ∈ components request := by
      rw [← mem_components_withoutSlashes (by decide), hslashes,
        mem_components_withoutSlashes (by decide)]
    simp only [locate_eq, hslashes, hup]

/-- A directory with a page, and a file beside it that is out of reach. The program
works beside the directory too. -/
def site : FileSystem where
  tree := .directory [("srv", .directory [("secret.json", .file ⟨#[]⟩),
    ("site", .directory [("index.json", .file ⟨#[]⟩),
      ("pages", .directory [("v1.2.json", .file ⟨#[]⟩)])])])]
  workingDirectory := ["srv"]

/-- The root is named in three ways: from the working directory, from the top, and by more
steps upwards than there are directories. -/
theorem locate_confined_site :
    (".." ∈ components "pages/../../secret" ∧
      locate site "site" "pages/../../secret" = none) ∧
    (".." ∉ components "//pages/v1.2" ∧
      (candidates "/srv/site" (withoutSlashes "//pages/v1.2")).find? site.isFile =
        some "/srv/site/pages/v1.2.json" ∧
      ∃ place content, base site "/srv/site" = .ok place ∧
        place.Leads ["pages", "v1.2.json"] (.file content)) ∧
    (locate site "../../srv/site" "/" = some "../../srv/site/index.json" ∧
      ∃ place content, base site "../../srv/site" = .ok place ∧
        place.Leads ["index.json"] (.file content)) := by
  have hescape : ".." ∈ components "pages/../../secret" := by decide
  have hplain : ".." ∉ components "//pages/v1.2" := by decide
  have hpage : locate site "/srv/site" "//pages/v1.2" = some "/srv/site/pages/v1.2.json" := rfl
  have hindex : locate site "../../srv/site" "/" = some "../../srv/site/index.json" := rfl
  obtain ⟨hnone, _⟩ := locate_confined site "site" "pages/../../secret"
  obtain ⟨_, hfirst, _, hbelow, _⟩ := locate_confined site "/srv/site" "//pages/v1.2"
  refine ⟨⟨hescape, hnone hescape⟩, ⟨hplain, ?_, ?_⟩, hindex, ?_⟩
  · rw [← hfirst hplain, hpage]
  · obtain ⟨path, place, content, _, hnames, _, _, hplace, hleads, _⟩ := hbelow _ hpage
    have hfull : names "/srv/site/pages/v1.2.json" =
        names "/srv/site" ++ ["pages", "v1.2.json"] := rfl
    rw [hfull] at hnames
    rw [← List.append_cancel_left hnames] at hleads
    exact ⟨place, content, hplace, hleads⟩
  · obtain ⟨_, _, _, hbelow, _⟩ := locate_confined site "../../srv/site" "/"
    obtain ⟨path, place, content, _, hnames, _, _, hplace, hleads, _⟩ := hbelow _ hindex
    have hfull : names "../../srv/site/index.json" =
        names "../../srv/site" ++ ["index.json"] := rfl
    rw [hfull] at hnames
    rw [← List.append_cancel_left hnames] at hleads
    exact ⟨place, content, hplace, hleads⟩

end Directory

end UiTemplate
