import CrateIndex.Proofs.Index.Files
import CrateIndex.Proofs.Index.Lines
import CrateIndex.Proofs.Registry.Merging

/-!
# An index split over files

Lines can be read as one index, or split over several that are united afterwards: what the first of
them add up to is where the next ones go on.
-/

namespace CrateIndex

theorem Registry.unite_foldl_add (m r : Registry) (as : List (Option (Record × Dependencies))) :
    m.unite (as.foldl add r) = as.foldl add (m.unite r) := by
  induction as generalizing r with
  | nil => rfl
  | cons a as ih =>
      rw [List.foldl_cons, List.foldl_cons, ih]
      cases a with
      | none => rfl
      | some a => rw [add, unite_setVersion]; rfl

namespace Index

open Result

/-- The parts united are the whole. -/
theorem total?_flatten (depth : Nat) (parts : List (List Text)) :
    total? depth parts.flatten =
      (parts.mapM (total? depth)).map fun rs => (Registry.merge .union rs).1 := by
  -- The induction is over the parts, from what the parts before came to.
  have hfold (m : Registry) :
      (parts.flatten.mapM (content? depth)).map (fun as => as.foldl Registry.add m) =
        (parts.mapM (total? depth)).map fun rs => (Registry.mergeInto .union m rs).1 := by
    induction parts generalizing m with
    | nil => rfl
    | cons part parts ih =>
        rw [List.flatten_cons, List.mapM_append, List.mapM_cons, total?]
        cases part.mapM (content? depth) with
        | none => rfl
        | some as =>
            have hm : m.unite (as.foldl Registry.add ∅) = as.foldl Registry.add m :=
              Registry.unite_foldl_add m ∅ as
            simp only [Option.bind_eq_bind, Option.bind_some, Option.map_some, Option.pure_def,
              Option.map_bind, Function.comp_def, List.foldl_append, Registry.mergeInto_union,
              List.foldl_cons, hm]
            simpa only [Option.map_eq_bind, Function.comp_def, Registry.mergeInto_union] using
              ih (as.foldl Registry.add m)
  exact hfold ∅

theorem toOption_registry {o : Opened} {text : Text} (h : fileText o.path o.bytes = .ok text) :
    (o.registry depth).toOption = total? depth text.lines := by
  rw [Opened.registry, ofFile, Logged.result_bind, Logged.result_ofExcept, h, ok_bind,
    toOption_ofLines]

theorem mapM_registry {os : List Opened} {texts : List Text}
    (h : List.Forall₂ (fun o text => fileText o.path o.bytes = .ok text) os texts) :
    (os.mapM fun o : Opened => (o.registry depth).toOption) =
      (texts.map Text.lines).mapM (total? depth) := by
  induction h with
  | nil => rfl
  | cons ho _ ih =>
      rw [List.map_cons, List.mapM_cons, List.mapM_cons, ih, toOption_registry ho]

/-- Index content split over several sources and united is the content read as one: lines that can
each be read by themselves, files that stay what they are, and files that change while the others
are read. -/
theorem ofLines_flatten (depth : Nat) :
    (∀ (source : Option Text) (parts : List (Option Text × List Text)) (rs : List Registry),
      List.Forall₂ (fun p r => (ofLines depth p.1 p.2).result = .ok r) parts rs →
      (ofLines depth source (parts.map Prod.snd).flatten).result =
        .ok (Registry.merge .union rs).1) ∧
    (∀ (source : Option Text) (contents : Text → Except PathError (List UInt8))
      (before : List Log.Entry) (paths texts : List Text),
      List.Forall₂ (fun path text => fileText path (contents path) = .ok text) paths texts →
      (ofFiles depth (fun _ => contents) .union before paths).result.toOption =
        (ofLines depth source (texts.map Text.lines).flatten).result.toOption) ∧
    ∀ (source : Option Text) (read : Reader) (before : List Log.Entry) (paths texts : List Text),
      List.Forall₂ (fun o text => fileText (Opened.path o) o.bytes = .ok text)
        (opened depth read .union (before ++ [startEntry .union paths.length]) ∅ paths) texts →
      (ofFiles depth read .union before paths).result.toOption =
        (ofLines depth source (texts.map Text.lines).flatten).result.toOption := by
  refine ⟨?_, ?_, ?_⟩
  · intro source parts rs h
    have hp : (parts.map Prod.snd).mapM (total? depth) = some rs :=
      mapM_eq_some_iff.2 <| List.forall₂_map_left_iff.2 <| h.imp fun p r hr => by
        rw [← toOption_ofLines p.1, hr, toOption_ok]
    rw [← toOption_eq_some, toOption_ofLines, total?_flatten, hp]
    rfl
  · intro source contents before paths texts h
    have ho : List.Forall₂ (fun o text => fileText (Opened.path o) o.bytes = .ok text)
        (paths.map fun path => ⟨path, contents path⟩) texts :=
      List.forall₂_map_left_iff.2 h
    rw [ofFiles, Logged.result_bind, Logged.result_note, ok_bind, toOption_mergeFiles,
      mapM_opened_const, mapM_registry ho, toOption_ofLines, total?_flatten]
    rfl
  · intro source read before paths texts h
    rw [ofFiles, Logged.result_bind, Logged.result_note, ok_bind, toOption_mergeFiles,
      mapM_registry h, toOption_ofLines, total?_flatten]
    rfl

/-- Two spellings of one name, in two sources or in two files, and a file whose content tells how
many records there are. -/
theorem ofLines_flatten_bare :
    (ofLines 990 none [bareLine "a-b" "1", bareLine "a_b" "2"]).result =
      .ok (.ofList [("test/a_b", .ofList [("1", ∅), ("2", ∅)])]) ∧
    (ofFiles 990 (fun _ path => .ok ((bareLine path "1").flatMap CodePoint.utf8)) .union []
        ["c", "d"]).result.toOption =
      some (.ofList [("test/c", .ofList [("1", ∅)]), ("test/d", .ofList [("1", ∅)])]) ∧
    (ofFiles 990 (fun before path =>
        .ok ((bareLine path (Decimal.text before.length)).flatMap CodePoint.utf8)) .union []
        ["c"]).result.toOption =
      some (.ofList [("test/c", .ofList [("1", ∅)])]) := by
  refine ⟨?_, ?_, ?_⟩
  · have h := (ofLines_flatten 990).1 none
      [(none, [bareLine "a-b" "1"]), (none, [bareLine "a_b" "2"])]
      [.ofList [("test/a_b", .ofList [("1", ∅)])], .ofList [("test/a_b", .ofList [("2", ∅)])]]
      (.cons (toOption_eq_some.1 (by decide +kernel))
        (.cons (toOption_eq_some.1 (by decide +kernel)) .nil))
    exact h.trans (congrArg Except.ok (by decide +kernel))
  · have h := (ofLines_flatten 990).2.1 none
      (fun path => .ok ((bareLine path "1").flatMap CodePoint.utf8)) [] ["c", "d"]
      [bareLine "c" "1", bareLine "d" "1"]
      (.cons (toOption_eq_some.1 (by decide +kernel))
        (.cons (toOption_eq_some.1 (by decide +kernel)) .nil))
    exact h.trans (by decide +kernel)
  · have h := (ofLines_flatten 990).2.2 none (fun before path =>
        .ok ((bareLine path (Decimal.text before.length)).flatMap CodePoint.utf8)) [] ["c"]
      [bareLine "c" "1"]
    rw [opened_singleton] at h
    exact (h (.cons (toOption_eq_some.1 (by decide +kernel)) .nil)).trans (by decide +kernel)

end Index

end CrateIndex
