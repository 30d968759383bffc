import UiTemplate.FileTree
import UiTemplate.Proofs.Text.Split

/-!
Where a path leads in a file tree. A walk is a matter of one component at a time,
so a walk along two paths in a row is a walk along the first and then, from where
it has led, along the second. A walk without a component that goes up only goes
down: each name on the way is an entry of the directory before it. A file that is
written is found under the path that it was written to.
-/

namespace UiTemplate

namespace FileTree

variable {above : List FileTree} {here place target tree : FileTree} {name : String}
  {front back rest : List String}

/-- The names lead down from a place: each is an entry of the directory that
those before it lead to. -/
inductive Leads : FileTree → List String → FileTree → Prop where
  | here (place : FileTree) : Leads place [] place
  | down {entries : List (String × FileTree)} {name : String} {next target : FileTree}
    {names : List String} (hentry : Fields.get? name entries = some next)
    (hrest : Leads next names target) : Leads (.directory entries) (name :: names) target

/-- Empty components and single dots are no names. -/
def isName (component : String) : Bool :=
  component != "" && component != "."

theorem isName_eq_false_iff : isName name = false ↔ name = "" ∨ name = "." := by
  simp [isName, Decidable.or_iff_not_imp_left]

def names (path : String) : List String :=
  (components path).filter isName

/-- One component of a walk, from a place and what lies above it. -/
def move (above : List FileTree) (here : FileTree) (name : String) :
    Except FileError (List FileTree × FileTree) :=
  match here with
  | .file _ => .error .notADirectory
  | .directory entries =>
    if name = "" ∨ name = "." then .ok (above, here)
    else if name = ".." then .ok (above.tail, above.head?.getD here)
    else if nameLimit < name.utf8ByteSize then .error .nameTooLong
    else
      match Fields.get? name entries with
      | none => .error .missing
      | some next => .ok (here :: above, next)

theorem walk_cons (above : List FileTree) (here : FileTree) (name : String) (rest : List String) :
    walk above here (name :: rest) =
      match move above here name with
      | .error error => .error error
      | .ok (above, next) => walk above next rest := by
  rw [walk.eq_def]
  unfold move
  cases here with
  | file content => rfl
  | directory entries =>
    simp only
    split
    · rfl
    split
    · cases above with
      | nil => rfl
      | cons parent above => rfl
    split
    · rfl
    cases Fields.get? name entries with
    | none => rfl
    | some next => rfl

/-- A component leads nowhere but from a directory; there it stays, goes up or
goes to an entry. -/
theorem move_eq_ok {above' : List FileTree} {next : FileTree}
    (h : move above here name = .ok (above', next)) :
    ∃ entries, here = .directory entries ∧
      ((isName name = false ∧ next = here) ∨ name = ".." ∨
        (isName name = true ∧ Fields.get? name entries = some next)) := by
  unfold move at h
  split at h
  · cases h
  · next entries =>
    refine ⟨entries, rfl, ?_⟩
    simp only [← isName_eq_false_iff] at h
    split at h
    · next hstay =>
      cases h
      exact .inl ⟨hstay, rfl⟩
    · next hkeep =>
      split at h
      · next hup => exact .inr (.inl hup)
      split at h
      · cases h
      split at h
      · cases h
      · next hentry =>
        cases h
        exact .inr (.inr ⟨Bool.of_not_eq_false hkeep, hentry⟩)

/-- What a walk does in its first step does not depend on what comes after. -/
theorem walk_cons_eq_ok (h : walk above here (name :: rest) = .ok target) :
    ∃ above' next, move above here name = .ok (above', next) ∧
      walk above' next rest = .ok target := by
  rw [walk_cons] at h
  split at h
  · cases h
  · next above' next hmove => exact ⟨above', next, hmove, h⟩

/-- A walk along two paths in a row passes a place, the same whatever the second
path is. -/
theorem exists_place (h : walk above here (front ++ back) = .ok target) :
    ∃ above' place, (∀ back, walk above here (front ++ back) = walk above' place back) ∧
      walk above' place back = .ok target := by
  induction front generalizing above here with
  | nil => exact ⟨above, here, fun _ => rfl, h⟩
  | cons name front ih =>
    obtain ⟨_, _, hmove, hrest⟩ := walk_cons_eq_ok h
    obtain ⟨above', place, hwalk, hback⟩ := ih hrest
    refine ⟨above', place, ?_, hback⟩
    intro back
    rw [List.cons_append, walk_cons, hmove]
    exact hwalk back

/-- A walk without steps upwards goes down through the names that count. -/
theorem leads_of_walk (hup : ".." ∉ rest) (h : walk above here rest = .ok target) :
    here.Leads (rest.filter isName) target := by
  induction rest generalizing above here with
  | nil =>
    rw [walk, Except.ok.injEq] at h
    rw [h]
    exact .here target
  | cons name rest ih =>
    obtain ⟨hname, hrest⟩ : ".." ≠ name ∧ ".." ∉ rest := by simpa using hup
    obtain ⟨above', next, hmove, hwalk⟩ := walk_cons_eq_ok h
    obtain ⟨entries, rfl, ⟨hskip, rfl⟩ | heq | ⟨hkeep, hentry⟩⟩ := move_eq_ok hmove
    · rw [List.filter_cons_of_neg (by simp [hskip])]
      exact ih hrest hwalk
    · exact absurd heq.symm hname
    · rw [List.filter_cons_of_pos hkeep]
      exact .down hentry (ih hrest hwalk)

/-- A path to a file ends with a name or goes up at its end: at a file there is no
way to stay. -/
theorem isName_of_walk {content : ByteArray}
    (h : walk above here (front ++ [name]) = .ok (.file content)) :
    name = ".." ∨ isName name = true := by
  obtain ⟨_, place, _, hlast⟩ := exists_place h
  obtain ⟨_, next, hmove, hnext⟩ := walk_cons_eq_ok hlast
  rw [walk, Except.ok.injEq] at hnext
  obtain ⟨_, rfl, ⟨_, heq⟩ | heq | ⟨hkeep, _⟩⟩ := move_eq_ok hmove
  · rw [hnext] at heq
    cases heq
  · exact .inl heq
  · exact .inr hkeep

theorem components_ne_nil (path : String) : components path ≠ [] := by
  rw [components, ne_eq, List.map_eq_nil_iff]
  exact Text.splitOn_ne_nil _ _

/-- Around a slash the components of a path are those of its two sides. -/
theorem components_append (left right : String) :
    components (left ++ "/" ++ right) = components left ++ components right := by
  simp [components, Text.splitOn_append]

theorem move_of_not_isName (h : isName name = false) (entries : List (String × FileTree)) :
    move above (.directory entries) name = .ok (above, .directory entries) := by
  rw [move, if_pos (isName_eq_false_iff.1 h)]

theorem move_of_entry {entries : List (String × FileTree)} (hname : isName name = true)
    (hup : name ≠ "..") (hshort : name.utf8ByteSize ≤ nameLimit)
    (hentry : Fields.get? name entries = some place) :
    move above (.directory entries) name = .ok (.directory entries :: above, place) := by
  have hkeep : ¬ (name = "" ∨ name = ".") := by simp [← isName_eq_false_iff, hname]
  rw [move, if_neg hkeep, if_neg hup, if_neg (Nat.not_lt.2 hshort), hentry]

/-- Names that lead down to something are a way to it. -/
theorem walk_of_leads (hlast : isName name = true) (hup : ".." ∉ front ++ [name])
    (hshort : ∀ component ∈ front ++ [name], component.utf8ByteSize ≤ nameLimit)
    (h : here.Leads (front.filter isName ++ [name]) target) :
    walk above here (front ++ [name]) = .ok target := by
  induction front generalizing above here with
  | nil =>
    have hname : name ≠ ".." := by simpa [eq_comm] using hup
    obtain ⟨hsize, _⟩ := List.forall_mem_cons.1 hshort
    cases h with
    | down hentry hrest =>
      cases hrest
      rw [List.nil_append, walk_cons, move_of_entry hlast hname hsize hentry]
      rfl
  | cons component front ih =>
    obtain ⟨hcomponent, hrest⟩ : component ≠ ".." ∧ ".." ∉ front ++ [name] := by
      simpa [eq_comm] using hup
    obtain ⟨hsize, hsizes⟩ := List.forall_mem_cons.1 hshort
    rw [List.cons_append, walk_cons]
    by_cases hkeep : isName component = true
    · rw [List.filter_cons_of_pos hkeep] at h
      cases h with
      | down hentry hleads =>
        rw [move_of_entry hkeep hcomponent hsize hentry]
        exact ih hrest hsizes hleads
    · rw [List.filter_cons_of_neg hkeep] at h
      -- There is a name at the end, so what leads on is a directory
      obtain ⟨entries, rfl⟩ : ∃ entries, here = .directory entries := by
        cases hnames : front.filter isName ++ [name] with
        | nil => simp at hnames
        | cons first names =>
          rw [hnames] at h
          cases h
          exact ⟨_, rfl⟩
      rw [move_of_not_isName (Bool.eq_false_iff.2 hkeep)]
      exact ih hrest hsizes h

/-- What is changed stands where the names lead to. -/
theorem leads_alter (change : Option FileTree → FileTree) (names : List String)
    (old : Option FileTree) : ∃ last, (alter change names old).Leads names (change last) := by
  induction names generalizing old with
  | nil => exact ⟨old, .here _⟩
  | cons name names ih =>
    obtain ⟨last, hlast⟩ := ih (Fields.get? name ((old.map entries).getD []))
    exact ⟨last, .down (Fields.get?_insert_self _ _ _) hlast⟩

theorem step_of_ne_up (h : name ≠ "..") (place : List String) :
    step place name = if isName name then name :: place else place := by
  cases hname : isName name with
  | false => rw [step, if_pos (isName_eq_false_iff.1 hname), if_neg Bool.false_ne_true]
  | true =>
    have hkeep : ¬ (name = "" ∨ name = ".") := by simp [← isName_eq_false_iff, hname]
    rw [step, if_neg hkeep, if_neg h, if_pos rfl]

/-- Directories are made in the place that the path leads to. -/
theorem makeWay_place (hup : ".." ∉ rest) (tree : FileTree) (place : List String) :
    (tree.makeWay place rest).2 = (rest.filter isName).reverse ++ place := by
  induction rest generalizing tree place with
  | nil => rfl
  | cons name rest ih =>
    obtain ⟨hname, hrest⟩ : name ≠ ".." ∧ ".." ∉ rest := by simpa [eq_comm] using hup
    rw [makeWay, ih hrest, step_of_ne_up hname]
    cases hkeep : isName name with
    | false => simp [hkeep]
    | true => simp [hkeep]

end FileTree

namespace FileSystem

open FileTree (components isName nameLimit pathLimit walk)

variable {files : FileSystem} {target : FileTree} {name path : String} {front : List String}

/-- A path's own components come last on the way from the top. -/
theorem exists_fromTop (files : FileSystem) (path : String) :
    ∃ before, files.fromTop path = before ++ components path := by
  rw [fromTop]
  split
  · exact ⟨[], rfl⟩
  · exact ⟨files.workingDirectory, rfl⟩

/-- A lookup walks from the top of the tree, if the system takes the path at all. -/
theorem find_eq_ok_iff : files.find path = .ok target ↔
    path ≠ "" ∧ '\x00' ∉ path.toList ∧ path.utf8ByteSize ≤ pathLimit ∧
      walk [] files.tree (files.fromTop path) = .ok target := by
  rw [find]
  by_cases hempty : path = ""
  · simp [hempty]
  by_cases hnul : '\x00' ∈ path.toList
  · simp [hempty, hnul]
  by_cases hlong : pathLimit < path.utf8ByteSize
  · simp [hempty, hnul, hlong, Nat.not_le.2 hlong]
  · rw [if_neg (by simpa using hempty), if_neg (by simpa using hnul), if_neg hlong]
    simp [hempty, hnul, Nat.le_of_not_lt hlong]

/-- A path is a file's if a lookup ends at one. -/
theorem isFile_iff : files.isFile path = true ↔
    ∃ content, files.find path = .ok (.file content) := by
  rw [isFile]
  split
  · next content hfind => exact ⟨fun _ => ⟨content, hfind⟩, fun _ => rfl⟩
  · next hnot =>
    refine ⟨fun hfalse => absurd hfalse Bool.false_ne_true, ?_⟩
    rintro ⟨content, hfind⟩
    exact absurd hfind (hnot content)

theorem fromTop_writeFile (content : ByteArray) (other : String) :
    (files.writeFile path content).fromTop other = files.fromTop other := by
  rw [writeFile]
  split
  · rfl
  · rfl

theorem tree_writeFile (hroute : files.fromTop path = front ++ [name])
    (hlast : isName name = true) (hup : ".." ∉ front ++ [name]) (content : ByteArray) :
    (files.writeFile path content).tree =
      FileTree.alter (fun _ => .file content) (front.filter isName ++ [name])
        (some (files.tree.makeWay [] front).1) := by
  obtain ⟨hfront, hname⟩ : ".." ∉ front ∧ name ≠ ".." := by simpa [eq_comm] using hup
  have hplace := FileTree.makeWay_place hfront files.tree []
  rw [List.append_nil] at hplace
  rw [writeFile, hroute, List.reverse_append, List.reverse_singleton, List.singleton_append]
  simp only [List.reverse_reverse, hplace, FileTree.step_of_ne_up hname, hlast, if_true,
    List.reverse_cons]

/-- A file that is written is there, wherever its path starts, unless the path
goes up. What stood in the way of it is gone. -/
theorem find_writeFile (hempty : path ≠ "") (hnul : '\x00' ∉ path.toList)
    (hlong : path.utf8ByteSize ≤ pathLimit) (hroute : files.fromTop path = front ++ [name])
    (hlast : isName name = true) (hup : ".." ∉ files.fromTop path)
    (hshort : ∀ component ∈ files.fromTop path, component.utf8ByteSize ≤ nameLimit)
    (content : ByteArray) : (files.writeFile path content).find path = .ok (.file content) := by
  rw [hroute] at hup hshort
  obtain ⟨_, hleads⟩ := FileTree.leads_alter (fun _ => .file content)
    (front.filter isName ++ [name]) (some (files.tree.makeWay [] front).1)
  rw [← tree_writeFile hroute hlast hup] at hleads
  refine find_eq_ok_iff.2 ⟨hempty, hnul, hlong, ?_⟩
  rw [fromTop_writeFile, hroute]
  exact FileTree.walk_of_leads hlast hup hshort hleads

example :
    let files : FileSystem := { tree := .directory [], workingDirectory := ["srv", "site"] }
    ((files.writeFile "/tmp/a.json" ⟨#[]⟩).makeDirectories ".").find "../../../tmp//a.json" =
      .ok (.file ⟨#[]⟩) := rfl

end FileSystem

end UiTemplate
