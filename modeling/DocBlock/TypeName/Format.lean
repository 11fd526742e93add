import DocBlock.TypeName.Shape

/-! # The documentation spelling of a type name

Type names are written the way documentation comments spell them: `Foo<Bar>` as `Foo.<Bar>`, `T[]`
as `Array.<T>`, `typeof x` as `@link x`. A repeat marker stays outside the array it repeats, so
`...string[]` becomes `...string`. A text that has no shape is kept as it is written. -/

namespace DocBlock.TypeName

/-- Whether every angle bracket in a text is closed, and none is closed before it is opened; `depth`
counts the open ones before the text. -/
def isBalanced (depth : Nat) : List Char → Bool
  | [] => depth == 0
  | '<' :: cs => isBalanced (depth + 1) cs
  | '>' :: cs => if depth = 0 then false else isBalanced (depth - 1) cs
  | _ :: cs => isBalanced depth cs

/-- The element of a name that is one array from end to end. -/
def arrayElement? (name : List Char) : Option (List Char) := do
  let rest ← Text.after? "Array.<".toList name
  if rest.getLast? = some '>' && isBalanced 0 rest.dropLast then some rest.dropLast else none

/-- The documentation spelling of a text without repeat marker. -/
def spell (text : List Char) : List Char :=
  Text.replaceAll "typeof ".toList "@link ".toList ((Shape.parse? text).elim text Shape.render)

theorem length_after? {pattern cs rest : List Char} (h : Text.after? pattern cs = some rest) :
    cs.length = pattern.length + rest.length := by
  induction pattern generalizing cs with
  | nil => simp only [Text.after?, Option.some.injEq] at h; simp [h]
  | cons p ps ih =>
    cases cs with
    | nil => simp [Text.after?] at h
    | cons c cs =>
      simp only [Text.after?] at h
      split at h
      · have := ih h
        simp only [List.length_cons]
        omega
      · simp at h

theorem length_trim_le (cs : List Char) : (Text.trim cs).length ≤ cs.length := by
  have start : (Text.trimStart cs).length ≤ cs.length := (List.dropWhile_sublist _).length_le
  have finish : ∀ ds : List Char, (Text.trimEnd ds).length ≤ ds.length := fun ds => by
    simpa [Text.trimEnd] using (List.dropWhile_sublist (l := ds.reverse) Text.isBlank).length_le
  exact Nat.le_trans (finish _) start

/-- The documentation spelling of a type name; an empty one is `any`. -/
def formatChars (cs : List Char) : List Char :=
  let text := Text.trim cs
  if text.isEmpty then "any".toList
  else
    match _marked : Text.after? "...".toList text with
    | some rest =>
      let inner := formatChars rest
      "...".toList ++ (arrayElement? inner).getD inner
    | none => spell text
termination_by cs.length
decreasing_by
  have taken : (Text.trim cs).length = "...".toList.length + rest.length := length_after? _marked
  have marker : "...".toList.length = 3 := rfl
  have := length_trim_le cs
  omega

/-- The documentation spelling of a type name as a string. -/
def format (text : String) : String :=
  String.ofList (formatChars text.toList)

end DocBlock.TypeName
