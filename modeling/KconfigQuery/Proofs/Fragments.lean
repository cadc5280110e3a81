import KconfigQuery.Proofs.StoreQueries

/-! # Configurations put together from fragments

A configuration can be made of fragments that are appended one to the other.  Where a line end
stands between two texts, the lines of the second come after those of the first, so its options are
laid over the options of the first.  Laying tables over each other is associative, and so a list of
fragments has one meaning, in whatever order the fragments are put together.

* `options_append_eq_overlay`   a line end between two texts
* `options_append_of_ended`     a line end that the first text has already
* `Assembly.overlaid_eq`        fragments that are put together in any grouping
* `parse_fragments`             what a parse makes of a file with two fragments -/

namespace KconfigQuery

namespace DotConfig

/-! ## Two fragments -/

/-- With a line end between them, the second text is laid over the first. -/
theorem options_append_eq_overlay (first second : String) :
    options (first ++ "\n" ++ second) = (options first).overlay (options second) := by
  rw [options_append, options, options, Table.overlay_ofList]

/-- The line end of the last line begins an empty line, which is skipped. -/
private theorem options_append_newline (content : String) :
    options (content ++ "\n") = options content := by
  have hempty : entries "" = [] := by decide
  have happend := options_append content ""
  rwa [String.append_empty, hempty] at happend

/-- A text that ends a line is one with its line end taken off and put on again. -/
private theorem exists_append_newline {content : String} (h : content.toList.getLast? = some '\n') :
    ∃ text, content = text ++ "\n" := by
  obtain ⟨before, hbefore⟩ := List.getLast?_eq_some_iff.mp h
  refine ⟨String.ofList before, String.toList_inj.mp ?_⟩
  rw [hbefore]
  simp

/-- So it is where the first text ends with a line end of its own. -/
theorem options_append_of_ended {first : String} (h : first.toList.getLast? = some '\n')
    (second : String) :
    options (first ++ second) = (options first).overlay (options second) := by
  obtain ⟨text, rfl⟩ := exists_append_newline h
  rw [options_append_eq_overlay, options_append_newline]

/-! ## Any number of fragments -/

/-- The text of fragments in a row, with a line end between each two. -/
def joined (fragments : List String) : String :=
  String.ofList (Text.joinPieces '\n' (fragments.map String.toList))

/-- A way to put fragments together, two at a time. -/
inductive Assembly where
  | fragment (text : String)
  | append (first second : Assembly)

namespace Assembly

/-- The fragments in their order. -/
def fragments : Assembly → List String
  | fragment text => [text]
  | append first second => first.fragments ++ second.fragments

/-- The options of the fragments laid over each other, in the order in which these are put
    together. -/
def overlaid : Assembly → Options
  | fragment text => options text
  | append first second => first.overlaid.overlay second.overlaid

/-- An assembly has at least one fragment. -/
private theorem fragments_ne_nil (assembly : Assembly) : assembly.fragments ≠ [] := by
  induction assembly with
  | fragment text => simp [fragments]
  | append first second ihFirst _ => simp [fragments, ihFirst]

/-- The fragments of two assemblies in a row are joined by a line end. -/
private theorem joined_append (first second : Assembly) :
    joined (first.fragments ++ second.fragments) =
      joined first.fragments ++ "\n" ++ joined second.fragments := by
  -- A line end stands between two fragments only, and there are some on both sides.
  have hfirst : first.fragments.map String.toList ≠ [] := by
    simpa using first.fragments_ne_nil
  have hsecond : second.fragments.map String.toList ≠ [] := by
    simpa using second.fragments_ne_nil
  apply String.toList_inj.mp
  simp [joined, Text.joinPieces_append hfirst hsecond]

/-- The options depend on the fragments and their order only, not on the grouping. -/
theorem overlaid_eq (assembly : Assembly) :
    assembly.overlaid = options (joined assembly.fragments) := by
  induction assembly with
  | fragment text => simp [overlaid, fragments, joined, Text.joinPieces]
  | append first second ihFirst ihSecond =>
    rw [overlaid, ihFirst, ihSecond, fragments, joined_append, options_append_eq_overlay]

end Assembly

/-! ## Parsing -/

/-- The text is the one fragment followed by the other, on a line of its own. -/
def Joins (first second content : String) : Prop :=
  content = first ++ "\n" ++ second ∨
    first.toList.getLast? = some '\n' ∧ content = first ++ second

/-- A file with one fragment after the other.  The second fragment decides on its keys and leaves
    all others as the first one has them.  The keys of the first fragment keep their places, and
    the keys that only the second one has come after them, in their order.  Overlays are
    associative, so what any list of fragments sets does not depend on how they are grouped. -/
theorem parse_fragments (files : FileSystem) (store : Store) (dir : String)
    {first second content : String}
    (h : files.contents (Path.join [dir, ".config"]) = .ok content)
    (hjoins : Joins first second content) :
    let parsed := (store.parse files dir).answer
    parsed = (options first).overlay (options second) ∧
      (∀ key ∈ (options second).keys, parsed.get? key = (options second).get? key) ∧
      (∀ key ∉ (options second).keys, parsed.get? key = (options first).get? key) ∧
      parsed.keys = (options first).keys ++
        (options second).keys.filter (fun key => key ∉ (options first).keys) ∧
      (∀ bottom middle top : Options,
        (bottom.overlay middle).overlay top = bottom.overlay (middle.overlay top)) ∧
      ∀ assembly : Assembly, assembly.overlaid = options (joined assembly.fragments) := by
  intro parsed
  have hparsed : parsed = (options first).overlay (options second) := by
    have hanswer : parsed = options content :=
      congrArg Store.Reply.answer (store.parse_of_contents h)
    rcases hjoins with rfl | ⟨hended, rfl⟩
    · rw [hanswer, options_append_eq_overlay]
    · rw [hanswer, options_append_of_ended hended]
  refine ⟨hparsed, ?_, ?_, ?_, Table.overlay_assoc, Assembly.overlaid_eq⟩
  · intro key hkey
    -- The second fragment has a value for the key, and that is found first.
    have hsome : ((options second).get? key).isSome := by
      rw [Option.isSome_iff_ne_none]
      exact fun hnone => Table.get?_eq_none_iff.mp hnone hkey
    rw [hparsed, Table.get?_overlay, Option.or_of_isSome hsome]
  · intro key hkey
    rw [hparsed, Table.get?_overlay, Table.get?_eq_none_iff.mpr hkey, Option.none_or]
  · rw [hparsed, Table.keys_overlay]

/-- A fragment is appended to a text that ends with a line end. -/
theorem parse_fragments_ended :
    let first := "B=1\nA=y\n"
    let second := "C=m\nB=\"2\""
    let files : FileSystem := {
      contents := fun _ => .ok (first ++ second)
      listDirectory := fun _ => .ok []
      isFile := fun _ => true
      isDirectory := fun _ => false
      isSymbolicLink := fun _ => false }
    files.contents (Path.join ["/k", ".config"]) = .ok (first ++ second) ∧
      Joins first second (first ++ second) ∧
      (Store.empty.parse files "/k").answer.keys = ["B", "A", "C"] ∧
      (Store.empty.parse files "/k").answer.get? "B" = some "2" ∧
      (Store.empty.parse files "/k").answer.get? "A" = some "y" := by
  intro first second files
  have hjoins : Joins first second (first ++ second) := .inr ⟨by decide, rfl⟩
  obtain ⟨-, hover, hunder, hkeys, -⟩ := parse_fragments files .empty "/k" rfl hjoins
  refine ⟨rfl, hjoins, ?_, ?_, ?_⟩
  · rw [hkeys]
    decide
  · rw [hover "B" (by decide)]
    decide
  · rw [hunder "A" (by decide)]
    decide

end DotConfig

end KconfigQuery
