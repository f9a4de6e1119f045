/-
# Paths of what lies below a directory

A name is joined to the path of its directory behind one separator, which is written only
where the text does not end with one. So the path of a name has the pieces of the directory,
without an empty one at the end, and then the name (`pieces_join_name`). Taking the directory
off a path that goes down from it leaves the names on the way, and nothing of the spelling of
the directory (`below?_descend`).
-/
import Coverage.Proofs.Path.Below

namespace Coverage.Path

variable {p : Path} {name : String} {names : List String}

/-- The path that goes down from a directory by the given names. -/
def descend (p : Path) (names : List String) : Path :=
  names.foldl (fun p name => p.join ⟨name⟩) p

theorem descend_cons (p : Path) (name : String) (names : List String) :
    p.descend (name :: names) = (p.join ⟨name⟩).descend names := rfl

/-- Whether a name can be written directly behind the text. -/
def isOpen (p : Path) : Bool := p.text.toList.getLast?.all (· == '/')

/-- The pieces behind which a name is written. -/
def stem (p : Path) : List (List Char) := if p.isOpen then p.pieces.dropLast else p.pieces

/-! ## One name -/

/-- A file name is a relative path. -/
theorem isAbsolute_name (h : IsFileName name) : (⟨name⟩ : Path).isAbsolute = false := by
  refine Bool.eq_false_iff.2 fun habsolute => ?_
  obtain ⟨rest, hrest⟩ := isAbsolute_iff.1 habsolute
  refine h.no_separator ?_
  rw [hrest]
  exact List.mem_cons_self

theorem join_name (p : Path) (h : IsFileName name) :
    p.join ⟨name⟩ = if p.isOpen then ⟨p.text ++ name⟩ else ⟨p.text ++ "/" ++ name⟩ := by
  rw [join, isAbsolute_name h, if_neg Bool.false_ne_true, isOpen]

theorem exists_toList_join_name (p : Path) (h : IsFileName name) :
    ∃ between, (p.join ⟨name⟩).text.toList = p.text.toList ++ between ++ name.toList := by
  rw [join_name p h]
  split
  · exact ⟨[], by rw [String.toList_append, List.append_nil]⟩
  · exact ⟨['/'], by rw [toList_append_separator, List.append_assoc, List.singleton_append]⟩

theorem text_join_name_ne (p : Path) (h : IsFileName name) : (p.join ⟨name⟩).text ≠ "" := by
  obtain ⟨between, hjoined⟩ := exists_toList_join_name p h
  intro hempty
  rw [hempty, eq_comm] at hjoined
  exact h.ne_empty (String.toList_eq_nil_iff.1 (List.append_eq_nil_iff.1 hjoined).2)

/-- A name can be written directly behind nothing, and behind a separator. -/
theorem isOpen_cases (h : p.isOpen = true) :
    (p.text.toList = [] ∧ p.stem = []) ∨
      ∃ before, p.text.toList = before ++ ['/'] ∧ p.stem = before.splitOn '/' := by
  rw [stem, if_pos h]
  rcases List.eq_nil_or_concat p.text.toList with hnil | ⟨before, last, hlast⟩
  · refine .inl ⟨hnil, ?_⟩
    rw [pieces, hnil, List.splitOn_nil]
    rfl
  · rw [List.concat_eq_append] at hlast
    rw [isOpen, hlast, List.getLast?_concat, Option.all_some, beq_iff_eq] at h
    rw [h] at hlast
    refine .inr ⟨before, hlast, ?_⟩
    rw [pieces_of_toList_eq hlast, List.splitOn_nil, List.dropLast_concat]

theorem stem_of_not_isOpen (h : p.isOpen = false) : p.stem = p.pieces := by
  rw [stem, h, if_neg Bool.false_ne_true]

/-- The stem is all but an empty piece at the end. -/
theorem exists_pieces_eq_stem_append (p : Path) :
    ∃ fillers, (∀ filler ∈ fillers, isFiller filler = true) ∧ p.pieces = p.stem ++ fillers := by
  cases h : p.isOpen with
  | true =>
    refine ⟨[[]], fun filler hfiller => List.mem_singleton.1 hfiller ▸ rfl, ?_⟩
    obtain ⟨hnil, hstem⟩ | ⟨before, htext, hstem⟩ := isOpen_cases h
    · rw [hstem, pieces, hnil, List.splitOn_nil, List.nil_append]
    · rw [hstem, pieces_of_toList_eq htext, List.splitOn_nil]
  | false =>
    refine ⟨[], fun filler hfiller => absurd hfiller List.not_mem_nil, ?_⟩
    rw [List.append_nil, stem_of_not_isOpen h]

theorem named_stem (p : Path) : named p.stem = named p.pieces := by
  obtain ⟨fillers, hfillers, hpieces⟩ := p.exists_pieces_eq_stem_append
  rw [hpieces, named_append, named_eq_nil_iff.2 hfillers, List.append_nil]

/-- The name is written behind the stem. -/
theorem pieces_join_name (p : Path) (h : IsFileName name) :
    (p.join ⟨name⟩).pieces = p.stem ++ [name.toList] := by
  have hname : name.toList.splitOn '/' = [name.toList] := List.splitOn_eq_singleton h.no_separator
  rw [join_name p h]
  cases hopen : p.isOpen with
  | true =>
    rw [if_pos rfl]
    obtain ⟨hnil, hstem⟩ | ⟨before, htext, hstem⟩ := isOpen_cases hopen
    · rw [hstem, pieces, String.toList_append, hnil, List.nil_append, hname, List.nil_append]
    · have hjoined : (⟨p.text ++ name⟩ : Path).text.toList = before ++ '/' :: name.toList := by
        rw [String.toList_append, htext, List.append_assoc, List.singleton_append]
      rw [hstem, pieces_of_toList_eq hjoined, hname]
  | false =>
    have hjoined : (⟨p.text ++ "/" ++ name⟩ : Path).text.toList =
        p.text.toList ++ '/' :: name.toList := toList_append_separator p.text name
    rw [if_neg Bool.false_ne_true, pieces_of_toList_eq hjoined, stem_of_not_isOpen hopen, hname,
      pieces]

/-- A path that ends with a name is its own stem. -/
theorem stem_join_name (p : Path) (h : IsFileName name) :
    (p.join ⟨name⟩).stem = p.stem ++ [name.toList] := by
  have hends : (p.join ⟨name⟩).isOpen = false := by
    obtain ⟨between, hjoined⟩ := exists_toList_join_name p h
    obtain ⟨last, hlast⟩ := Option.isSome_iff_exists.1
      (List.getLast?_isSome.2 (mt String.toList_eq_nil_iff.1 h.ne_empty))
    rw [isOpen, hjoined, List.getLast?_append, hlast, Option.some_or, Option.all_some,
      beq_eq_false_iff_ne]
    rintro rfl
    exact h.no_separator (List.mem_of_getLast? hlast)
  rw [stem_of_not_isOpen hends, pieces_join_name p h]

/-- On the way down the names come behind the stem, one by one. -/
theorem stem_descend (p : Path) (h : ∀ name ∈ names, IsFileName name) :
    (p.descend names).stem = p.stem ++ names.map String.toList := by
  induction names generalizing p with
  | nil => exact (List.append_nil _).symm
  | cons name names ih =>
    obtain ⟨hname, hnames⟩ := List.forall_mem_cons.1 h
    rw [descend_cons, ih _ hnames, stem_join_name p hname, List.append_assoc, List.map_cons,
      List.singleton_append]

/-! ## The start of the text -/

theorem isAbsolute_join_name (hp : p.text ≠ "") (h : IsFileName name) :
    (p.join ⟨name⟩).isAbsolute = p.isAbsolute := by
  obtain ⟨between, hjoined⟩ := exists_toList_join_name p h
  obtain ⟨first, rest, htext⟩ :=
    List.exists_cons_of_ne_nil (mt String.toList_eq_nil_iff.1 hp)
  rw [isAbsolute, isAbsolute, hjoined, htext]
  rfl

theorem stem_ne_nil (hp : p.text ≠ "") : p.stem ≠ [] := by
  cases h : p.isOpen with
  | true =>
    obtain ⟨hnil, -⟩ | ⟨before, -, hstem⟩ := isOpen_cases h
    · exact absurd (String.toList_eq_nil_iff.1 hnil) hp
    · rw [hstem]
      exact List.splitOn_ne_nil _ _
  | false =>
    rw [stem_of_not_isOpen h]
    exact p.pieces_ne_nil

theorem head?_pieces_eq_head?_stem (hp : p.text ≠ "") : p.pieces.head? = p.stem.head? := by
  obtain ⟨fillers, -, hpieces⟩ := p.exists_pieces_eq_stem_append
  obtain ⟨first, rest, hstem⟩ := List.exists_cons_of_ne_nil (stem_ne_nil hp)
  rw [hpieces, hstem]
  rfl

theorem head_join_name (hp : p.text ≠ "") (h : IsFileName name) :
    (p.join ⟨name⟩).head = p.head := by
  rw [head, head, isAbsolute_join_name hp h, head?_pieces_eq_head?_stem hp,
    head?_pieces_eq_head?_stem (text_join_name_ne p h), stem_join_name p h, List.head?_append,
    Option.or_of_isSome (List.isSome_head?.2 (stem_ne_nil hp))]

/-- A name that is joined to a directory is its last component. -/
theorem components_join_name (hp : p.text ≠ "") (h : IsFileName name) :
    (p.join ⟨name⟩).components = p.components ++ [.normal name] := by
  have hnamed : named [name.toList] = [.normal name] := by
    rw [named, List.filterMap_cons_some h.ofPiece?_toList, List.filterMap_nil]
  rw [components, components, head_join_name hp h, ← named, ← named, pieces_join_name p h,
    named_append, named_stem, hnamed, List.append_assoc]

/-- On the way down the start of the path stays, and its components go on by the names. -/
theorem head_and_components_descend (hp : p.text ≠ "") (h : ∀ name ∈ names, IsFileName name) :
    (p.descend names).text ≠ "" ∧ (p.descend names).head = p.head ∧
      (p.descend names).components = p.components ++ names.map Component.normal := by
  induction names generalizing p with
  | nil => exact ⟨hp, rfl, (List.append_nil _).symm⟩
  | cons name names ih =>
    obtain ⟨hname, hnames⟩ := List.forall_mem_cons.1 h
    obtain ⟨htext, hhead, hcomponents⟩ := ih (text_join_name_ne p hname) hnames
    refine ⟨htext, hhead.trans (head_join_name hp hname), ?_⟩
    rw [descend_cons, hcomponents, components_join_name hp hname, List.append_assoc,
      List.map_cons, List.singleton_append]

/-! ## Taking the directory off -/

/-- Dropping what pieces name leaves some fillers at most. -/
theorem exists_dropNamed_eq (base rest : List (List Char)) :
    ∃ fillers, (∀ filler ∈ fillers, isFiller filler = true) ∧
      dropNamed (named base).length (base ++ rest) = fillers ++ rest := by
  induction base with
  | nil =>
    refine ⟨[], fun filler hfiller => absurd hfiller List.not_mem_nil, ?_⟩
    rw [named_nil, List.length_nil, dropNamed, List.nil_append]
  | cons piece base ih =>
    cases hpiece : Component.ofPiece? piece with
    | none =>
      have hnamed : named (piece :: base) = named base := List.filterMap_cons_none hpiece
      have hfiller : isFiller piece = true := isFiller_iff.2 hpiece
      rw [hnamed]
      cases hcount : (named base).length with
      | zero =>
        refine ⟨piece :: base, ?_, rfl⟩
        rw [List.forall_mem_cons]
        exact ⟨hfiller, named_eq_nil_iff.1 (List.length_eq_zero_iff.1 hcount)⟩
      | succ n =>
        rw [hcount] at ih
        rw [List.cons_append, dropNamed, if_pos hfiller]
        exact ih
    | some component =>
      have hnamed : named (piece :: base) = component :: named base :=
        List.filterMap_cons_some hpiece
      have hnot : ¬ isFiller piece = true := by
        rw [isFiller_iff, hpiece]
        exact Option.some_ne_none component
      rw [hnamed, List.length_cons, List.cons_append, dropNamed, if_neg hnot]
      exact ih

theorem dropWhile_isFiller_eq_self {pieces : List (List Char)}
    (h : ∀ piece ∈ pieces, isFiller piece = false) : pieces.dropWhile isFiller = pieces := by
  rw [List.dropWhile_eq_self_iff]
  intro hsome hfiller
  rw [h _ (List.getElem_mem hsome)] at hfiller
  cases hfiller

/-- Fillers behind pieces that name something are trimmed. -/
theorem rdropWhile_isFiller_append {middle after : List (List Char)}
    (hmiddle : ∀ piece ∈ middle, isFiller piece = false)
    (hafter : ∀ filler ∈ after, isFiller filler = true) :
    ((middle ++ after).reverse.dropWhile isFiller).reverse = middle := by
  have hreverse : ∀ filler ∈ after.reverse, isFiller filler = true :=
    fun filler hfiller => hafter filler (List.mem_reverse.1 hfiller)
  rw [List.reverse_append, List.dropWhile_append_of_pos hreverse, dropWhile_isFiller_eq_self,
    List.reverse_reverse]
  exact fun piece hpiece => hmiddle piece (List.mem_reverse.1 hpiece)

/-- Fillers around pieces that name something are trimmed. -/
theorem trimFillers_append {before middle after : List (List Char)}
    (hbefore : ∀ filler ∈ before, isFiller filler = true)
    (hmiddle : ∀ piece ∈ middle, isFiller piece = false)
    (hafter : ∀ filler ∈ after, isFiller filler = true) :
    trimFillers (before ++ (middle ++ after)) = middle := by
  rw [trimFillers, List.dropWhile_append_of_pos hbefore]
  cases middle with
  | nil =>
    rw [List.nil_append, List.dropWhile_eq_nil_iff.2 hafter]
    rfl
  | cons piece middle =>
    have hfirst : ¬ isFiller piece = true := by simp [hmiddle]
    rw [List.cons_append, List.dropWhile_cons_of_neg hfirst, ← List.cons_append,
      rdropWhile_isFiller_append hmiddle hafter]

/-- At the end of a path fillers are trimmed, and the piece at its head stays. -/
theorem trimEnd_eq {first : List Char} {rest after : List (List Char)}
    (hpieces : p.pieces = first :: (rest ++ after)) (hfirst : first ≠ [])
    (hrest : ∀ piece ∈ rest, isFiller piece = false)
    (hafter : ∀ filler ∈ after, isFiller filler = true) : p.trimEnd = ofPieces (first :: rest) := by
  rw [trimEnd, hpieces, List.take_succ_cons, List.take_zero, List.drop_succ_cons, List.drop_zero,
    rdropWhile_isFiller_append hrest hafter, List.singleton_append]
  exact if_neg fun h => hfirst (List.cons.inj h.1).1

theorem isFiller_toList (h : IsFileName name) : isFiller name.toList = false := by
  rw [isFiller, h.ofPiece?_toList, Option.isNone_some]

/-- Names that are put together at separators spell the path of their pieces. -/
theorem ofPieces_map_toList (names : List String) :
    ofPieces (names.map String.toList) = ⟨"/".intercalate names⟩ := by
  have hjoined : ("/".intercalate names).toList = ['/'].intercalate (names.map String.toList) :=
    String.toList_intercalate
  rw [ofPieces, ← hjoined, String.ofList_toList]

/-- Only an empty piece and a dot are passed over. -/
theorem eq_of_isFiller {piece : List Char} (h : isFiller piece = true) :
    piece = [] ∨ piece = ['.'] := by
  rw [isFiller_iff] at h
  unfold Component.ofPiece? at h
  split at h
  · exact .inl rfl
  · exact .inr rfl
  · cases h
  · cases h

/-- A character that is no separator belongs to the first piece. -/
theorem head?_splitOn_cons_ne {c : Char} (hc : c ≠ '/') (text : List Char) :
    ((c :: text).splitOn '/').head? ≠ some [] := by
  obtain ⟨piece, more, hmore⟩ := List.exists_cons_of_ne_nil (List.splitOn_ne_nil '/' text)
  rw [List.splitOn_cons_eq_if_modifyHead, if_neg (mt beq_iff_eq.1 hc), hmore]
  exact fun h => nomatch Option.some.inj h

/-- The start of a text means the root or the directory itself, and is then a filler among the
pieces; or else a piece names something. -/
theorem head_cases (hp : p.text ≠ "") :
    (∃ component first rest, p.head = [component] ∧ p.stem = first :: rest ∧
      isFiller first = true) ∨ p.head = [] ∧ named p.stem ≠ [] := by
  obtain ⟨first, rest, hstem⟩ := List.exists_cons_of_ne_nil (stem_ne_nil hp)
  have hfirst : p.pieces.head? = some first := by
    rw [head?_pieces_eq_head?_stem hp, hstem, List.head?_cons]
  obtain ⟨c, text, htext⟩ := List.exists_cons_of_ne_nil (mt String.toList_eq_nil_iff.1 hp)
  by_cases hc : c = '/'
  · have habsolute : p.isAbsolute = true := isAbsolute_iff.2 ⟨text, hc ▸ htext⟩
    rw [pieces, htext, hc, splitOn_separator_cons, List.head?_cons, Option.some_inj] at hfirst
    exact .inl ⟨.root, first, rest, by rw [head, if_pos habsolute], hstem, hfirst ▸ rfl⟩
  have hrelative : ¬ p.isAbsolute = true := by
    rw [isAbsolute, htext, List.head?_cons, beq_iff_eq, Option.some_inj]
    exact hc
  by_cases hdot : first = ['.']
  · rw [hdot] at hfirst
    refine .inl ⟨.current, first, rest, ?_, hstem, hdot ▸ rfl⟩
    rw [head, if_neg hrelative, if_pos hfirst]
  · refine .inr ⟨by rw [head, if_neg hrelative, hfirst, if_neg (mt Option.some.inj hdot)], ?_⟩
    intro hnone
    obtain hempty | hcurrent :=
      eq_of_isFiller (named_eq_nil_iff.1 hnone first (hstem ▸ List.mem_cons_self))
    · rw [pieces, htext, hempty] at hfirst
      exact head?_splitOn_cons_ne hc text hfirst
    · exact hdot hcurrent

/-- From no directory at all the names are the whole path. -/
theorem below?_descend_of_empty (h : ∀ name ∈ names, IsFileName name) :
    (⟨""⟩ : Path).below? ((⟨""⟩ : Path).descend names) = some ⟨"/".intercalate names⟩ := by
  obtain ⟨after, hafter, hpieces⟩ := ((⟨""⟩ : Path).descend names).exists_pieces_eq_stem_append
  have htrimmed : ((⟨""⟩ : Path).descend names).trimEnd = ⟨"/".intercalate names⟩ := by
    rw [stem_descend _ h] at hpieces
    cases names with
    | nil => rfl
    | cons name names =>
      obtain ⟨hname, hnames⟩ := List.forall_mem_cons.1 h
      rw [← ofPieces_map_toList]
      refine trimEnd_eq hpieces (mt String.toList_eq_nil_iff.1 hname.ne_empty) ?_ hafter
      intro piece hpiece
      obtain ⟨other, hother, rfl⟩ := List.mem_map.1 hpiece
      exact isFiller_toList (hnames other hother)
  rw [← htrimmed]
  rfl

/-- The names on the way down are left of a path when the directory is taken off. -/
theorem below?_descend (p : Path) (h : ∀ name ∈ names, IsFileName name) :
    p.below? (p.descend names) = some ⟨"/".intercalate names⟩ := by
  by_cases hp : p.text = ""
  · obtain ⟨text⟩ := p
    obtain rfl : text = "" := hp
    exact below?_descend_of_empty h
  obtain ⟨-, hhead, hcomponents⟩ := head_and_components_descend hp h
  obtain ⟨after, hafter, hpieces⟩ := (p.descend names).exists_pieces_eq_stem_append
  rw [stem_descend p h, List.append_assoc] at hpieces
  have hprefix : p.components.isPrefixOf (p.descend names).components = true :=
    List.isPrefixOf_iff_prefix.2 ⟨names.map Component.normal, hcomponents.symm⟩
  have hnames : ∀ piece ∈ names.map String.toList, isFiller piece = false := by
    intro piece hpiece
    obtain ⟨name, hname, rfl⟩ := List.mem_map.1 hpiece
    exact isFiller_toList (h name hname)
  -- The pieces of the directory are dropped up to fillers, which are trimmed with those behind.
  have hleft (base : List (List Char)) : ofPieces (trimFillers (dropNamed (named base).length
      (base ++ (names.map String.toList ++ after)))) = ⟨"/".intercalate names⟩ := by
    obtain ⟨before, hbefore, hdropped⟩ :=
      exists_dropNamed_eq base (names.map String.toList ++ after)
    rw [hdropped, trimFillers_append hbefore hnames hafter, ofPieces_map_toList]
  rw [below?, if_pos hprefix, hhead, hpieces, components, ← named, ← named_stem]
  obtain ⟨component, first, rest, hcomponent, hstem, hfiller⟩ | ⟨hnone, hsome⟩ := head_cases hp
  · have hnamed : named p.stem = named rest := by
      rw [hstem]
      exact List.filterMap_cons_none (isFiller_iff.1 hfiller)
    rw [hcomponent, hnamed, hstem]
    exact congrArg some (hleft rest)
  · obtain ⟨n, hn⟩ := Nat.exists_eq_succ_of_ne_zero (mt List.length_eq_zero_iff.1 hsome)
    have hstem := hleft p.stem
    rw [hn] at hstem
    rw [hnone, List.nil_append, hn]
    exact congrArg some hstem

end Coverage.Path
