import UiTemplate.Fetch.Settings

/-!
The slashes between a base and an endpoint in a URL. One is added to a base that does not
end in a slash, and one is taken from an endpoint that begins with one, so there is just
one slash between them if each side brings at most one of its own. Others are not taken
away: a base that ends in several keeps them all, and so does an endpoint that begins with
several, up to the one. What there is then between the two is said for any numbers of
slashes.
-/

namespace UiTemplate

def slashes (count : Nat) : String :=
  String.ofList (List.replicate count '/')

@[simp] theorem slashes_zero : slashes 0 = "" := rfl

@[simp] theorem slashes_one : slashes 1 = "/" := rfl

/-- A base with a slash at its end, which is added if there is none. -/
def closed (base : List Char) : List Char :=
  if base.getLast? = some '/' then base else base ++ ['/']

/-- An endpoint without the slash that it may begin with. -/
def opened : List Char → List Char
  | '/' :: rest => rest
  | text => text

variable {base endpoint : String} {m n : Nat}

theorem joinUrl_of_ne_empty (h : endpoint ≠ "") :
    joinUrl base endpoint = String.ofList (closed base.toList ++ opened endpoint.toList) := by
  have hempty : ¬ endpoint.isEmpty = true := fun hnil => h (String.isEmpty_iff.1 hnil)
  rw [joinUrl, if_neg hempty]
  rfl

theorem closed_append_replicate {base : List Char} (h : base.getLast? ≠ some '/') (count : Nat) :
    closed (base ++ List.replicate count '/') = base ++ List.replicate (max count 1) '/' := by
  cases count with
  | zero =>
    rw [List.replicate_zero, List.append_nil, closed, if_neg h]
    rfl
  | succ count =>
    have hlast : (base ++ List.replicate (count + 1) '/').getLast? = some '/' := by
      rw [List.replicate_succ', ← List.append_assoc]
      exact List.getLast?_concat
    rw [closed, if_pos hlast, Nat.max_eq_left (Nat.le_add_left 1 count)]

theorem opened_replicate_append {endpoint : List Char} (h : endpoint.head? ≠ some '/')
    (count : Nat) : opened (List.replicate count '/' ++ endpoint) =
      List.replicate (count - 1) '/' ++ endpoint := by
  cases count with
  | zero =>
    cases endpoint with
    | nil => rfl
    | cons c rest =>
      have hc : c ≠ '/' := fun heq => h (congrArg some heq)
      simp [opened, hc]
  | succ count => rfl

/-- The base keeps its slashes, or gets one if it has none, and the endpoint loses one. -/
theorem joinUrl_slashes (hbase : base.toList.getLast? ≠ some '/')
    (hendpoint : endpoint.toList.head? ≠ some '/') (hne : endpoint ≠ "") (m n : Nat) :
    joinUrl (base ++ slashes m) (slashes n ++ endpoint) =
      base ++ slashes (max m 1 + (n - 1)) ++ endpoint := by
  have hwhole : slashes n ++ endpoint ≠ "" := by
    intro hnil
    exact hne (String.append_eq_empty_iff.1 hnil).2
  apply String.toList_injective
  rw [joinUrl_of_ne_empty hwhole]
  simp only [slashes, String.toList_append, String.toList_ofList]
  rw [closed_append_replicate hbase, opened_replicate_append hendpoint, ← List.replicate_append_replicate]
  simp only [List.append_assoc]

/-- Texts with different numbers of slashes in their middle are different. -/
theorem append_slashes_append_inj :
    base ++ slashes m ++ endpoint = base ++ slashes n ++ endpoint ↔ m = n := by
  constructor
  · intro h
    have hlength := congrArg String.length h
    simp only [String.length_append, slashes, String.length_ofList, List.length_replicate]
      at hlength
    omega
  · rintro rfl
    rfl

/-- A single slash is left exactly if neither side has more than one. -/
theorem joinUrl_eq_single_iff (hbase : base.toList.getLast? ≠ some '/')
    (hendpoint : endpoint.toList.head? ≠ some '/') (hne : endpoint ≠ "") :
    joinUrl (base ++ slashes m) (slashes n ++ endpoint) = base ++ "/" ++ endpoint ↔
      m ≤ 1 ∧ n ≤ 1 := by
  have hcount : max m 1 + (n - 1) = 1 ↔ m ≤ 1 ∧ n ≤ 1 := by omega
  rw [joinUrl_slashes hbase hendpoint hne, ← slashes_one, append_slashes_append_inj, hcount]

/-- Between a base and an endpoint there are as many slashes as the base ends in, or one if
it ends in none, and as many more as the endpoint begins with, but one. That is a single
slash, and the same URL for all of them, exactly if neither side brings more than one. -/
theorem slashes_at_junction (hbase : base.toList.getLast? ≠ some '/')
    (hendpoint : endpoint.toList.head? ≠ some '/') (hne : endpoint ≠ "") (m n : Nat) :
    joinUrl (base ++ slashes m) (slashes n ++ endpoint) =
      base ++ slashes (max m 1 + (n - 1)) ++ endpoint ∧
    (joinUrl (base ++ slashes m) (slashes n ++ endpoint) = base ++ "/" ++ endpoint ↔
      m ≤ 1 ∧ n ≤ 1) ∧
    ∀ settings : FetchSettings, settings.baseUrl = base →
      ({ settings with baseUrl := base ++ slashes m }.urlFor (slashes n ++ endpoint) =
        settings.urlFor endpoint ↔ m ≤ 1 ∧ n ≤ 1) := by
  have hsingle := joinUrl_eq_single_iff (m := m) (n := n) hbase hendpoint hne
  refine ⟨joinUrl_slashes hbase hendpoint hne m n, hsingle, ?_⟩
  rintro settings rfl
  have hplain : settings.urlFor endpoint = settings.baseUrl ++ "/" ++ endpoint := by
    have hnone : joinUrl (settings.baseUrl ++ slashes 0) (slashes 0 ++ endpoint) =
        settings.baseUrl ++ "/" ++ endpoint :=
      (joinUrl_eq_single_iff hbase hendpoint hne).2 ⟨Nat.zero_le 1, Nat.zero_le 1⟩
    rwa [slashes_zero, String.append_empty, String.empty_append] at hnone
  rw [hplain]
  exact hsingle

/-- A base that ends in a slash and an endpoint that begins with one, and the same two with
more slashes. -/
theorem slashes_at_junction_local :
    "http://h:3000".toList.getLast? ≠ some '/' ∧ "a/b".toList.head? ≠ some '/' ∧ "a/b" ≠ "" ∧
      joinUrl "http://h:3000/" "/a/b" = "http://h:3000/a/b" ∧
      joinUrl "http://h:3000///" "//a/b" = "http://h:3000////a/b" := by
  have hbase : "http://h:3000".toList.getLast? ≠ some '/' := by decide
  have hendpoint : "a/b".toList.head? ≠ some '/' := by decide
  have hne : "a/b" ≠ "" := by decide
  refine ⟨hbase, hendpoint, hne, ?_, ?_⟩
  · exact (slashes_at_junction hbase hendpoint hne 1 1).2.1.2 ⟨Nat.le_refl 1, Nat.le_refl 1⟩
  · exact (slashes_at_junction hbase hendpoint hne 3 2).1

/-- A base that ends in two slashes keeps them both, and so does an endpoint that begins
with two. -/
theorem slashes_kept_at_junction :
    joinUrl ("http://h" ++ slashes 2) (slashes 0 ++ "a") ≠ "http://h" ++ "/" ++ "a" ∧
      joinUrl ("http://h" ++ slashes 0) (slashes 2 ++ "a") ≠ "http://h" ++ "/" ++ "a" := by
  decide

end UiTemplate
