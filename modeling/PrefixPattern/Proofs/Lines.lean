import PrefixPattern.Lines

/-!
# What is read from a file of lines

A file is cut at its line feeds as bytes, and only then is each line read as text.  For a text
this is the same as cutting the text at its line feeds, since no other character has the byte of a
line feed in its encoding.

## What is here

* `cutLines_eq` — the lines are the pieces between the line feeds, all of them ended but the last.
* `splitOn_encode` — cutting the encoding of a text is cutting the text.
* `parseLines_eq` — the members of a text, piece by piece.
* `parseLines_eq_iff` — these are the pieces without one carriage return each, as long as no line
  feed has two of them in front of it.
* `OnePerLine.parseLines` — strings that were written one per line are read back.
-/

set_option autoImplicit false

namespace PrefixPattern

/-! ## Cutting bytes -/

/-- The pieces of a file as lines: every piece but the last was ended, and a last one without any
bytes is no line. -/
def asLines : List (List UInt8) → List Line
  | [] => []
  | [piece] => if piece = [] then [] else [⟨piece, false⟩]
  | piece :: next :: rest => ⟨piece, true⟩ :: asLines (next :: rest)

theorem asLines_cons {piece : List UInt8} {rest : List (List UInt8)} (h : rest ≠ []) :
    asLines (piece :: rest) = ⟨piece, true⟩ :: asLines rest := by
  obtain ⟨next, rest, rfl⟩ := List.exists_cons_of_ne_nil h
  rfl

/-- The current line holds what was read since the last line feed. -/
theorem cutLines_eq (bytes current : List UInt8) (done : List Line) :
    cutLines bytes current done =
      done.reverse ++ asLines (bytes.splitOnPPrepend (· == 10) current) := by
  fun_induction cutLines bytes current done with
  | case1 done => simp [asLines]
  | case2 b current done => simp [asLines]
  | case3 rest current done ih =>
    rw [ih, List.splitOnPPrepend_cons_pos (by rfl), asLines_cons (List.splitOnP_ne_nil _ _)]
    simp
  | case4 b rest current done hb ih =>
    rw [ih, List.splitOnPPrepend_cons_neg (by simpa using hb)]

/-! ## Encoded texts -/

/-- The bytes of a text. -/
def encode (cs : List Char) : List UInt8 :=
  cs.flatMap String.utf8EncodeChar

theorem toList_utf8Encode (cs : List Char) : cs.utf8Encode.data.toList = encode cs := by
  rw [List.utf8Encode, List.toList_data_toByteArray]
  rfl

theorem toList_toUTF8 (text : String) : text.toUTF8.data.toList = encode text.toList := by
  rw [String.toUTF8_eq_toByteArray, ← String.utf8Encode_toList, toList_utf8Encode]

/-- Bytes that encode a text are read as that text. -/
theorem fromUTF8?_encode (cs : List Char) :
    String.fromUTF8? ⟨(encode cs).toArray⟩ = some (String.ofList cs) := by
  have hbytes : (⟨(encode cs).toArray⟩ : ByteArray) = cs.utf8Encode :=
    ByteArray.ext (Array.toList_inj.1 (toList_utf8Encode cs).symm)
  have hvalid : cs.utf8Encode.IsValidUTF8 := ByteArray.isValidUTF8_utf8Encode
  rw [hbytes, String.fromUTF8?, dif_pos hvalid]
  refine congrArg some (String.toByteArray_inj.1 ?_)
  rw [String.toByteArray_ofList]
  rfl

/-- The file that holds a text is read as that text. -/
theorem Files.readText_eq {files : Files} {path text : String}
    (h : files path = .ok (.file text.toUTF8)) : files.readText path = .ok text := by
  have hbytes : text.toUTF8 = ⟨(encode text.toList).toArray⟩ := by rw [← toList_toUTF8]
  have hvalid : String.fromUTF8? text.toUTF8 = some text := by
    rw [hbytes, fromUTF8?_encode, String.ofList_toList]
  simp only [Files.readText, Files.read, h, hvalid]

/-- Only a line feed has the byte of a line feed in its encoding. -/
theorem not_mem_utf8EncodeChar {c : Char} (hc : c ≠ '\n') :
    (10 : UInt8) ∉ String.utf8EncodeChar c := by
  have hval : c.val.toNat ≠ 10 := fun h => hc (Char.ext (UInt32.toNat_inj.1 h))
  have hbyte : ∀ n, n % 256 ≠ 10 → (10 : UInt8) ≠ UInt8.ofNat n := by
    intro n hn heq
    rw [← UInt8.toNat_inj, UInt8.toNat_ofNat'] at heq
    exact hn heq.symm
  rw [String.utf8EncodeChar]
  split
  · simp only [List.mem_cons, List.not_mem_nil, or_false]
    exact hbyte _ (by omega)
  · split
    · simp only [List.mem_cons, List.not_mem_nil, or_false, not_or]
      exact ⟨hbyte _ (by omega), hbyte _ (by omega)⟩
    · split
      · simp only [List.mem_cons, List.not_mem_nil, or_false, not_or]
        exact ⟨hbyte _ (by omega), hbyte _ (by omega), hbyte _ (by omega)⟩
      · simp only [List.mem_cons, List.not_mem_nil, or_false, not_or]
        exact ⟨hbyte _ (by omega), hbyte _ (by omega), hbyte _ (by omega), hbyte _ (by omega)⟩

/-- **Cutting the encoding of a text is cutting the text.** -/
theorem splitOn_encode (cs : List Char) :
    (encode cs).splitOn 10 = (cs.splitOn '\n').map encode := by
  have hskip : ∀ bs rest : List UInt8, 10 ∉ bs →
      (bs ++ rest).splitOn 10 = (rest.splitOn 10).modifyHead (bs ++ ·) := by
    intro bs rest hbs
    induction bs with
    | nil =>
      rw [List.nil_append]
      cases rest.splitOn 10 <;> rfl
    | cons b bs ih =>
      obtain ⟨hb, hbs⟩ := not_or.1 (mt List.mem_cons.2 hbs)
      rw [List.cons_append, List.splitOn_cons_eq_if_modifyHead, if_neg (by simpa using Ne.symm hb),
        ih hbs]
      cases rest.splitOn 10 <;> rfl
  induction cs with
  | nil => rfl
  | cons c cs ih =>
    rw [encode, List.flatMap_cons, ← encode, List.splitOn_cons_eq_if_modifyHead]
    by_cases hc : c = '\n'
    · subst hc
      rw [if_pos (beq_self_eq_true _), show String.utf8EncodeChar '\n' = [10] from rfl,
        List.singleton_append, List.splitOn_cons_eq_if_modifyHead, if_pos (beq_self_eq_true _), ih]
      rfl
    · rw [if_neg (by simpa using hc), hskip _ _ (not_mem_utf8EncodeChar hc), ih]
      cases cs.splitOn '\n' <;> rfl

/-! ## Members -/

/-- What is left of the pieces of a text, the last of which was not ended. -/
def memberTexts : List (List Char) → List (List Char)
  | [] => []
  | [piece] => [memberOfLine false piece]
  | piece :: next :: rest => memberOfLine true piece :: memberTexts (next :: rest)

/-- The texts that are not empty, as strings. -/
def kept (texts : List (List Char)) : List String :=
  (texts.filter (· ≠ [])).map String.ofList

theorem member?_encode (piece : List Char) (terminated : Bool) :
    Line.member? ⟨encode piece, terminated⟩ = some (memberOfLine terminated piece) := by
  rw [Line.member?, fromUTF8?_encode, Option.map_some, String.toList_ofList]

theorem membersOfLines?_cons {piece : List Char} {terminated : Bool} {rest : List Line}
    {done : List String} :
    membersOfLines? (⟨encode piece, terminated⟩ :: rest) done =
      membersOfLines? rest ((kept [memberOfLine terminated piece]).reverse ++ done) := by
  rw [membersOfLines?, member?_encode]
  cases memberOfLine terminated piece with
  | nil => rfl
  | cons c cs => rfl

theorem kept_append (texts more : List (List Char)) :
    kept (texts ++ more) = kept texts ++ kept more := by
  rw [kept, kept, kept, ← List.map_append, ← List.filter_append]

theorem kept_cons (t : List Char) (texts : List (List Char)) :
    kept (t :: texts) = kept [t] ++ kept texts :=
  kept_append [t] texts

/-- Reading the lines of an encoded text gives what is left of its pieces. -/
theorem membersOfLines?_asLines (pieces : List (List Char)) (done : List String) :
    membersOfLines? (asLines (pieces.map encode)) done =
      some (done.reverse ++ kept (memberTexts pieces)) := by
  fun_induction memberTexts pieces generalizing done with
  | case1 => simp [asLines, membersOfLines?, kept]
  | case2 piece =>
    rw [List.map_singleton, asLines]
    split
    · rename_i hempty
      have hnil : piece = [] := by
        cases piece with
        | nil => rfl
        | cons c cs => simp [encode] at hempty
      subst hnil
      simp [membersOfLines?, kept, memberOfLine, dropReturn]
    · rw [membersOfLines?_cons, membersOfLines?, List.reverse_append, List.reverse_reverse]
  | case3 piece next rest ih =>
    rw [List.map_cons, asLines_cons (by simp), membersOfLines?_cons, ih,
      kept_cons (memberOfLine true piece) (memberTexts (next :: rest)), List.reverse_append,
      List.reverse_reverse, List.append_assoc]

/-- **The members of a text**: what is left of the pieces between its line feeds, without the empty
ones. -/
theorem parseLines_eq (text : String) (path : String) :
    parseLines text.toUTF8 path = .ok (kept (memberTexts (text.toList.splitOn '\n'))) := by
  have hcut : cutLines text.toUTF8.data.toList [] [] =
      asLines ((text.toList.splitOn '\n').map encode) := by
    rw [cutLines_eq, toList_toUTF8, ← splitOn_encode]
    rfl
  rw [parseLines, hcut, membersOfLines?_asLines]
  rfl

/-! ## Carriage returns -/

theorem dropReturn_concat (u : List Char) (c : Char) :
    dropReturn (u ++ [c]) = if c = '\r' then u else u ++ [c] := by
  rw [dropReturn, List.getLast?_concat, List.dropLast_concat]
  simp

/-- On a line with at most one carriage return at its end, one is all that is dropped. -/
theorem memberOfLine_of_not_suffix {piece : List Char} (h : ¬ ['\r', '\r'] <:+ piece) :
    memberOfLine true piece = dropReturn piece := by
  rw [memberOfLine, if_pos rfl]
  rcases List.eq_nil_or_concat piece with rfl | ⟨u, c, rfl⟩
  · rfl
  · rw [List.concat_eq_append] at h ⊢
    rw [dropReturn_concat]
    split
    · rename_i hc
      subst hc
      rcases List.eq_nil_or_concat u with rfl | ⟨v, d, rfl⟩
      · rfl
      · rw [List.concat_eq_append] at h ⊢
        rw [dropReturn_concat, if_neg]
        rintro rfl
        exact h ⟨v, by rw [List.append_assoc]; rfl⟩
    · rename_i hc
      rw [dropReturn_concat, if_neg hc]

/-- On a line with two of them, both are dropped. -/
theorem length_memberOfLine_of_suffix {piece : List Char} (h : ['\r', '\r'] <:+ piece) :
    (dropReturn piece).length = (memberOfLine true piece).length + 1 := by
  obtain ⟨u, rfl⟩ := h
  rw [show u ++ ['\r', '\r'] = (u ++ ['\r']) ++ ['\r'] by simp, memberOfLine, if_pos rfl,
    dropReturn_concat, if_pos rfl, dropReturn_concat, if_pos rfl, List.length_append,
    List.length_singleton]

/-- The total length of texts. -/
def totalLength : List (List Char) → Nat
  | [] => 0
  | t :: texts => t.length + totalLength texts

theorem totalLength_kept (texts : List (List Char)) :
    totalLength ((kept texts).map String.toList) = totalLength texts := by
  induction texts with
  | nil => rfl
  | cons t texts ih =>
    rw [totalLength, ← ih]
    cases t with
    | nil => exact (Nat.zero_add _).symm
    | cons c cs => simp [kept, totalLength]

theorem totalLength_eq_of_kept_eq {texts more : List (List Char)} (h : kept texts = kept more) :
    totalLength texts = totalLength more := by
  rw [← totalLength_kept, h, totalLength_kept]

/-- What the ended lines lose beyond one carriage return each. -/
theorem totalLength_memberTexts (pieces : List (List Char)) :
    totalLength (pieces.map dropReturn) =
      totalLength (memberTexts pieces) +
        pieces.dropLast.countP fun piece => ['\r', '\r'] <:+ piece := by
  fun_induction memberTexts pieces with
  | case1 => rfl
  | case2 piece => rfl
  | case3 piece next rest ih =>
    have hhead : (dropReturn piece).length = (memberOfLine true piece).length +
        if ['\r', '\r'] <:+ piece then 1 else 0 := by
      split
      · rename_i h
        exact length_memberOfLine_of_suffix h
      · rename_i h
        rw [memberOfLine_of_not_suffix h]
        rfl
    rw [List.dropLast_cons_cons, List.countP_cons]
    simp only [totalLength, List.map_cons, decide_eq_true_eq] at ih ⊢
    omega

theorem memberTexts_eq_map {pieces : List (List Char)}
    (h : ∀ piece ∈ pieces.dropLast, ¬ ['\r', '\r'] <:+ piece) :
    memberTexts pieces = pieces.map dropReturn := by
  fun_induction memberTexts pieces with
  | case1 => rfl
  | case2 piece => rfl
  | case3 piece next rest ih =>
    rw [List.dropLast_cons_cons, List.forall_mem_cons] at h
    rw [memberOfLine_of_not_suffix h.1, ih h.2]
    rfl

/-- One more line feed at the end of a text ends its last line. -/
theorem memberTexts_concat (pieces : List (List Char)) (last : List Char) :
    memberTexts (pieces ++ [last]) =
      pieces.map (memberOfLine true) ++ [memberOfLine false last] := by
  induction pieces with
  | nil => rfl
  | cons piece rest ih =>
    have hne : rest ++ [last] ≠ [] := List.append_ne_nil_of_right_ne_nil rest (by simp)
    obtain ⟨next, more, h⟩ := List.exists_cons_of_ne_nil hne
    rw [List.cons_append, h, memberTexts, ← h, ih]
    rfl

/-- A line feed at the end makes a difference to the last line where it has two carriage returns. -/
theorem parseLines_append_lineFeed (text : String) (path : String) :
    parseLines (text ++ "\n").toUTF8 path = parseLines text.toUTF8 path ↔
      ¬ ['\r', '\r'] <:+ (text.toList.splitOn '\n').getLast (List.splitOn_ne_nil _ _) := by
  have hcut : (text ++ "\n").toList.splitOn '\n' = text.toList.splitOn '\n' ++ [[]] := by
    rw [String.toList_append]
    exact List.splitOn_append_cons_self _ _
  have hpieces := List.dropLast_concat_getLast (List.splitOn_ne_nil '\n' text.toList)
  generalize (text.toList.splitOn '\n').getLast (List.splitOn_ne_nil _ _) = last at hpieces ⊢
  have hempty : kept [memberOfLine false []] = [] := rfl
  rw [parseLines_eq, parseLines_eq, hcut, memberTexts_concat, ← hpieces, memberTexts_concat,
    List.map_append, kept_append, kept_append, kept_append, hempty, List.append_nil,
    Except.ok.injEq, List.append_cancel_left_eq]
  refine ⟨?_, ?_⟩
  · intro heq h
    have hsame := totalLength_eq_of_kept_eq heq
    have hlen := length_memberOfLine_of_suffix h
    simp [totalLength, memberOfLine] at hsame hlen
    omega
  · intro h
    rw [List.map_singleton, memberOfLine_of_not_suffix h]
    rfl

/-- **Lines lose one carriage return each, unless one that is ended has two.**  The members are
always what is left of the pieces.  They are the pieces with at most one carriage return dropped
just where no line feed has two of them in front of it, and this is also what the last line needs
to be read alike with and without a line feed. -/
theorem parseLines_eq_iff (text : String) (path : String) :
    parseLines text.toUTF8 path = .ok (kept (memberTexts (text.toList.splitOn '\n'))) ∧
      (parseLines text.toUTF8 path = .ok (kept ((text.toList.splitOn '\n').map dropReturn)) ↔
        ∀ piece ∈ (text.toList.splitOn '\n').dropLast, ¬ ['\r', '\r'] <:+ piece) ∧
      (parseLines (text ++ "\n").toUTF8 path = parseLines text.toUTF8 path ↔
        ¬ ['\r', '\r'] <:+ (text.toList.splitOn '\n').getLast (List.splitOn_ne_nil _ _)) := by
  refine ⟨parseLines_eq text path, ?_, parseLines_append_lineFeed text path⟩
  rw [parseLines_eq]
  refine ⟨fun heq => ?_, fun h => by rw [memberTexts_eq_map h]⟩
  -- equal lists are equally long in total, and a line with two carriage returns is one shorter
  have hsame := totalLength_eq_of_kept_eq (Except.ok.inj heq)
  have htotal := totalLength_memberTexts (text.toList.splitOn '\n')
  have hnone : (text.toList.splitOn '\n').dropLast.countP
      (fun piece => ['\r', '\r'] <:+ piece) = 0 := by omega
  simpa using List.countP_eq_zero.1 hnone

/-- **Two carriage returns are lost together**, where the first belongs to the member. -/
theorem parseLines_two_returns :
    parseLines "a\r\r\n".toUTF8 "x" = .ok ["a"] ∧
      kept (("a\r\r\n".toList.splitOn '\n').map dropReturn) = ["a\r"] := by
  refine ⟨?_, ?_⟩
  · rw [parseLines_eq]
    exact congrArg Except.ok (by decide)
  · decide

/-! ## Members one per line -/

/-- The string can stand on a line and is read from there as it is. -/
structure FitsOnLine (b : String) : Prop where
  ne_empty : b ≠ ""
  no_lineFeed : '\n' ∉ b.toList
  no_return : b.toList.getLast? ≠ some '\r'

/-- The end of a line, with a carriage return or without one. -/
def lineEnd (withReturn : Bool) : List Char :=
  if withReturn then ['\r', '\n'] else ['\n']

/-- The text has the strings in their order, one per line.  The end of the last line may be missing,
and there may be blank lines anywhere. -/
inductive OnePerLine : List String → List Char → Prop
  | nil : OnePerLine [] []
  | last (b : String) : OnePerLine [b] b.toList
  | line (b : String) (withReturn : Bool) {members : List String} {cs : List Char} :
      OnePerLine members cs → OnePerLine (b :: members) (b.toList ++ lineEnd withReturn ++ cs)
  | blank (withReturn : Bool) {members : List String} {cs : List Char} :
      OnePerLine members cs → OnePerLine members (lineEnd withReturn ++ cs)

theorem dropReturn_eq_self {cs : List Char} (h : cs.getLast? ≠ some '\r') : dropReturn cs = cs := by
  rw [dropReturn, if_neg h]

theorem kept_singleton {b : String} (h : b ≠ "") : kept [b.toList] = [b] := by
  simp [kept, h]

/-- The line of a member with a carriage return, or without one, is read as the member.  An empty
line is read as nothing for the same reason. -/
theorem memberOfLine_append {cs : List Char} (h : cs.getLast? ≠ some '\r') (withReturn : Bool) :
    memberOfLine true (cs ++ if withReturn then ['\r'] else []) = cs := by
  rw [memberOfLine, if_pos rfl]
  cases withReturn with
  | false => simp only [Bool.false_eq_true, if_false, List.append_nil, dropReturn_eq_self h]
  | true => rw [if_pos rfl, dropReturn_concat, if_pos rfl, dropReturn_eq_self h]

/-- What is left of a text that starts with a line. -/
theorem memberTexts_line {cs : List Char} (hfeed : '\n' ∉ cs) (withReturn : Bool)
    (rest : List Char) :
    memberTexts ((cs ++ lineEnd withReturn ++ rest).splitOn '\n') =
      memberOfLine true (cs ++ if withReturn then ['\r'] else []) ::
        memberTexts (rest.splitOn '\n') := by
  have hline : cs ++ lineEnd withReturn ++ rest =
      (cs ++ if withReturn then ['\r'] else []) ++ '\n' :: rest := by
    cases withReturn <;> simp [lineEnd]
  have hpiece : '\n' ∉ cs ++ if withReturn then ['\r'] else [] := by
    cases withReturn <;> simp [hfeed]
  obtain ⟨next, pieces, hpieces⟩ := List.exists_cons_of_ne_nil (List.splitOn_ne_nil '\n' rest)
  rw [hline, List.splitOn_append_cons_self_of_not_mem hpiece, hpieces, memberTexts]

/-- Reading a text that starts with a line. -/
theorem kept_memberTexts_line {cs : List Char} (hfeed : '\n' ∉ cs)
    (hreturn : cs.getLast? ≠ some '\r') (withReturn : Bool) (rest : List Char) :
    kept (memberTexts ((cs ++ lineEnd withReturn ++ rest).splitOn '\n')) =
      kept [cs] ++ kept (memberTexts (rest.splitOn '\n')) := by
  rw [memberTexts_line hfeed, memberOfLine_append hreturn, kept_cons]

/-- **Strings that stand one per line are read as they are.** -/
theorem OnePerLine.parseLines {members : List String} {text : String}
    (h : OnePerLine members text.toList) (hfits : ∀ b ∈ members, FitsOnLine b) (path : String) :
    parseLines text.toUTF8 path = .ok members := by
  rw [parseLines_eq]
  refine congrArg Except.ok ?_
  generalize text.toList = cs at h
  induction h with
  | nil => rfl
  | last b =>
    obtain ⟨hne, hfeed, hreturn⟩ := hfits b List.mem_cons_self
    rw [List.splitOn_eq_singleton hfeed, memberTexts, memberOfLine, if_neg Bool.false_ne_true,
      dropReturn_eq_self hreturn, kept_singleton hne]
  | line b withReturn _ ih =>
    obtain ⟨hb, hmembers⟩ := List.forall_mem_cons.1 hfits
    rw [kept_memberTexts_line hb.no_lineFeed hb.no_return, kept_singleton hb.ne_empty, ih hmembers]
    rfl
  | blank withReturn _ ih =>
    have hblank := @kept_memberTexts_line [] (by decide) (by decide) withReturn
    rw [← List.nil_append (lineEnd withReturn), hblank, ih hfits]
    rfl

/-- The members of a file with strings one per line. -/
theorem OnePerLine.readMembers {members : List String} {text path : String} {files : Files}
    (h : OnePerLine members text.toList) (hfits : ∀ b ∈ members, FitsOnLine b)
    (hpath : Path.isName "-" path = false) (hfile : files path = .ok (.file text.toUTF8))
    (stdin : ByteArray) : readMembers files stdin path = .ok members := by
  rw [PrefixPattern.readMembers, hpath, if_neg Bool.false_ne_true, Files.read, hfile]
  exact h.parseLines hfits path

end PrefixPattern
