import Mathlib
import PrefixPattern.Proofs.Fragment.Characters
import PrefixPattern.Proofs.Text.Pieces
import PrefixPattern.Report

/-!
# Reports on lines of their own

The text output of a build has a line for every set: its name, a tab, and its pattern.  A name may
hold any characters, however, and a pattern keeps the line feeds and tabs of its strings, only with
a backslash in front of them.  What stands on the lines of an output is therefore not always what
was reported.

## What is here

* `Report.readLines?` — the names and patterns on the lines of a text.
* `Report.readLines?_eq_iff` — these are the reported ones just where no name has a tab or a line
  feed in it and no pattern has a line feed.
* `Report.pairs_eq_of_sets_eq` — where no name has a tab, an output still shows what was reported.
-/

set_option autoImplicit false

namespace PrefixPattern

namespace Report

/-! ## Reading lines -/

/-- What stands on a line in front of its first tab, and what stands behind it. -/
def cutAtTab (line : List Char) : String × String :=
  (.ofList (line.takeWhile (· ≠ '\t')), .ofList ((line.dropWhile (· ≠ '\t')).drop 1))

/-- The names and patterns on the lines of a text, of which the last must be ended as well. -/
def readLines? (text : String) : Option (List (String × String)) :=
  let pieces := text.toList.splitOn '\n'
  if pieces.getLast? = some [] then some (pieces.dropLast.map cutAtTab) else none

/-- The name and the pattern of a report, as they are printed. -/
def pair (r : Report) : String × String :=
  (r.name.getD "-", r.pattern)

/-- The characters of a report on its line. -/
def content (r : Report) : List Char :=
  r.pair.1.toList ++ '\t' :: r.pair.2.toList

theorem toList_sets (reports : List Report) :
    (OutputFormat.text.sets reports).toList = (reports.map content).flatMap (· ++ ['\n']) := by
  have hline : ∀ r : Report, r.line.toList = r.content ++ ['\n'] := fun r => by
    simp [line, content, pair]
  rw [OutputFormat.sets, OutputFormat.pieces, String.toList_join, List.flatMap_map,
    List.flatMap_map]
  exact List.flatMap_congr fun r _ => hline r

theorem cutAtTab_append {name : List Char} (h : '\t' ∉ name) (rest : List Char) :
    cutAtTab (name ++ '\t' :: rest) = (.ofList name, .ofList rest) := by
  have htake : ∀ c ∈ name, decide (c ≠ '\t') = true := fun c hc =>
    decide_eq_true fun heq => h (heq ▸ hc)
  have hstop : decide ('\t' ≠ '\t') = false := by decide
  rw [cutAtTab, List.takeWhile_append_of_pos htake, List.dropWhile_append_of_pos htake,
    List.takeWhile_cons, List.dropWhile_cons, hstop]
  simp

theorem cutAtTab_content {r : Report} (h : '\t' ∉ r.pair.1.toList) :
    cutAtTab r.content = r.pair := by
  rw [content, cutAtTab_append h, String.ofList_toList, String.ofList_toList]

/-- The part of a line in front of its first tab has no tab. -/
theorem notMem_cutAtTab (line : List Char) : '\t' ∉ (cutAtTab line).1.toList := by
  intro hmem
  rw [cutAtTab, String.toList_ofList] at hmem
  simpa using List.mem_takeWhile_imp hmem

theorem count_lines (lines : List (List Char)) :
    (lines.flatMap (· ++ ['\n'])).count '\n' =
      (lines.map (List.count '\n')).sum + lines.length := by
  induction lines with
  | nil => rfl
  | cons l lines ih =>
    rw [List.flatMap_cons, List.count_append, List.count_append, List.count_singleton_self, ih,
      List.map_cons, List.sum_cons, List.length_cons]
    omega

theorem notMem_content_iff {r : Report} :
    '\n' ∉ r.content ↔ '\n' ∉ r.pair.1.toList ∧ '\n' ∉ r.pair.2.toList := by
  simp [content]

/-- Reports without line feeds take a line each. -/
theorem readLines?_sets {reports : List Report} (h : ∀ r ∈ reports, '\n' ∉ r.content) :
    readLines? (OutputFormat.text.sets reports) =
      some (reports.map fun r => cutAtTab r.content) := by
  rw [readLines?, toList_sets, splitOn_ended (by simpa using h)]
  simp

/-- If there are just as many lines as reports, none of the reports has a line feed. -/
theorem notMem_content_of_length {reports : List Report} {pairs : List (String × String)}
    (h : readLines? (OutputFormat.text.sets reports) = some pairs)
    (hlength : pairs.length = reports.length) : ∀ r ∈ reports, '\n' ∉ r.content := by
  rw [readLines?, Option.ite_none_right_eq_some, Option.some.injEq] at h
  have hpieces : ((OutputFormat.text.sets reports).toList.splitOn '\n').length =
      reports.length + 1 := by
    have hpos := List.length_pos_of_ne_nil
      (List.splitOn_ne_nil '\n' (OutputFormat.text.sets reports).toList)
    rw [← hlength, ← h.2, List.length_map, List.length_dropLast]
    omega
  rw [length_splitOn, toList_sets, count_lines, List.length_map] at hpieces
  have hsum : ((reports.map content).map (List.count '\n')).sum = 0 := by omega
  intro r hr
  rw [← List.count_eq_zero]
  exact List.sum_eq_zero_iff_forall_eq_nat.1 hsum _
    (List.mem_map_of_mem (List.mem_map_of_mem hr))

/-- **The lines of an output are those of its reports** just where these can be told from their
surroundings. -/
theorem readLines?_eq_iff (reports : List Report) :
    readLines? (OutputFormat.text.sets reports) = some (reports.map pair) ↔
      ∀ r ∈ reports,
        '\n' ∉ r.pair.1.toList ∧ '\t' ∉ r.pair.1.toList ∧ '\n' ∉ r.pair.2.toList := by
  refine ⟨fun h r hr => ?_, fun h => ?_⟩
  · have hfeeds := notMem_content_of_length h (by rw [List.length_map])
    have hpairs := Option.some.inj ((readLines?_sets hfeeds).symm.trans h)
    have hcut : cutAtTab r.content = r.pair := List.map_inj_left.1 hpairs r hr
    obtain ⟨hname, hpattern⟩ := notMem_content_iff.1 (hfeeds r hr)
    exact ⟨hname, hcut ▸ notMem_cutAtTab r.content, hpattern⟩
  · rw [readLines?_sets fun r hr => notMem_content_iff.2 ⟨(h r hr).1, (h r hr).2.2⟩,
      Option.some.injEq]
    exact List.map_congr_left fun r hr => cutAtTab_content (h r hr).2.1

/-! ## Telling reports apart -/

/-- The lines of two outputs are the same only if what was reported is, name by name and pattern by
pattern. -/
theorem pairs_eq_of_lines_eq {reports others : List Report}
    (h : ∀ r ∈ reports, '\t' ∉ r.pair.1.toList ∧ Continued r.pair.2.toList)
    (h' : ∀ r ∈ others, '\t' ∉ r.pair.1.toList ∧ Continued r.pair.2.toList)
    (hlines : (reports.map content).flatMap (· ++ ['\n']) =
      (others.map content).flatMap (· ++ ['\n'])) :
    reports.map pair = others.map pair := by
  induction reports generalizing others with
  | nil => cases others <;> simp at hlines ⊢
  | cons r reports ih =>
    cases others with
    | nil => simp at hlines
    | cons q others =>
      obtain ⟨⟨htab, hpattern⟩, hrest⟩ := List.forall_mem_cons.1 h
      obtain ⟨⟨htab', hpattern'⟩, hrest'⟩ := List.forall_mem_cons.1 h'
      simp only [List.map_cons, List.flatMap_cons, content, List.append_assoc, List.cons_append,
        List.nil_append] at hlines
      have hcut := congrArg cutAtTab hlines
      rw [cutAtTab_append htab, cutAtTab_append htab', Prod.mk.injEq, String.ofList_inj,
        String.ofList_inj] at hcut
      obtain ⟨hname, hbehind⟩ := hcut
      obtain ⟨hsame, hmore⟩ := hpattern.append_inj hpattern' hbehind
      have hpair : r.pair = q.pair :=
        Prod.ext (String.toList_inj.1 hname) (String.toList_inj.1 hsame)
      rw [List.map_cons, List.map_cons, hpair, ih hrest hrest' hmore]

/-- **An output shows what was reported** where no name has a tab in it, however many lines a
pattern takes. -/
theorem pairs_eq_of_sets_eq {reports others : List Report}
    (h : ∀ r ∈ reports, '\t' ∉ r.pair.1.toList ∧ Continued r.pair.2.toList)
    (h' : ∀ r ∈ others, '\t' ∉ r.pair.1.toList ∧ Continued r.pair.2.toList)
    (heq : OutputFormat.text.sets reports = OutputFormat.text.sets others) :
    reports.map pair = others.map pair :=
  pairs_eq_of_lines_eq h h' (by rw [← toList_sets, ← toList_sets, heq])

end Report

end PrefixPattern
