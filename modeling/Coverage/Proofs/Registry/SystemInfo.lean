/-
# What plug-ins tell about themselves, as text

The text has one block for every entry of the registry. The keys of a block end at one
column, where their separators stand below each other. Behind the indent there is room for
the bytes of the longest key, while a key takes as much room as it has characters. It never
has more characters than bytes, so that no key is too long for the room; and it has as many
only when all its characters are ASCII, which decides whether the room is used up.
-/
import Coverage.Proofs.Registry.Representation
import Coverage.Proofs.Text.Pieces
import Mathlib.Data.List.Forall2

namespace Coverage

variable {σ : Type}

namespace Text

/-- Text of one byte a character. -/
def IsAscii (text : String) : Prop := ∀ c ∈ text.toList, c.val ≤ 127

/-- A text has as many bytes as characters when it is ASCII, and more otherwise. -/
theorem length_compare_utf8ByteSize (text : String) :
    text.length ≤ text.utf8ByteSize ∧ (text.length = text.utf8ByteSize ↔ IsAscii text) := by
  rw [← String.ofList_toList (s := text)]
  generalize text.toList = characters
  induction characters with
  | nil => simp [IsAscii]
  | cons c rest ih =>
    obtain ⟨hle, hiff⟩ := ih
    have hpos : 0 < c.utf8Size := c.utf8Size_pos
    have hascii : IsAscii (String.ofList (c :: rest)) ↔
        c.utf8Size = 1 ∧ IsAscii (String.ofList rest) := by
      simp only [IsAscii, String.toList_ofList, List.forall_mem_cons, Char.utf8Size_eq_one_iff]
    rw [hascii, ← hiff, String.ofList_cons, String.utf8ByteSize_append,
      String.utf8ByteSize_singleton, String.length_append, String.length_singleton]
    omega

theorem length_le_utf8ByteSize (text : String) : text.length ≤ text.utf8ByteSize :=
  (length_compare_utf8ByteSize text).1

theorem length_eq_utf8ByteSize_iff {text : String} :
    text.length = text.utf8ByteSize ↔ IsAscii text :=
  (length_compare_utf8ByteSize text).2

end Text

namespace Registry

/-! ## Blocks -/

/-- The column at which the separators of a block stand: behind the indent and as many
characters as the longest key has bytes. -/
def separatorColumn (info : List (String × String)) : Nat :=
  4 + (info.map fun pair => pair.1.utf8ByteSize).max?.getD 0

/-- The line of a pair, with its separator at a column. -/
def IsPairLine (column : Nat) (pair : String × String) (line : String) : Prop :=
  ∃ spaces, 4 ≤ spaces ∧ spaces + pair.1.length = column ∧
    line = String.ofList (List.replicate spaces ' ') ++ pair.1 ++ ": " ++ pair.2

/-- The block of one plug-in. -/
inductive IsBlock (name : String) (info : List (String × String)) : List String → Prop
  /-- The plug-in has nothing to tell. -/
  | nothing : info = [] → IsBlock name info ["-- sys: " ++ name ++ " --", "    -none-"]
  /-- One line for every pair, in order, with all the separators at one column. -/
  | pairs (lines : List String) : info ≠ [] →
      List.Forall₂ (IsPairLine (separatorColumn info)) info lines →
      IsBlock name info (("-- sys: " ++ name ++ " --") :: lines)

/-- A key of most characters comes directly behind the indent. -/
def IsTight (info : List (String × String)) : Prop :=
  ∀ pair ∈ info, (∀ other ∈ info, other.1.length ≤ pair.1.length) →
    4 + pair.1.length = separatorColumn info

instance (info : List (String × String)) : Decidable (IsTight info) :=
  inferInstanceAs (Decidable (∀ pair ∈ info, _ → _))

/-! ## Room for the keys -/

variable {info : List (String × String)}

/-- The greatest size in a list is that of an element. -/
theorem exists_greatest {α : Type} (size : α → Nat) {l : List α} (h : l ≠ []) :
    ∃ a ∈ l, size a = (l.map size).max?.getD 0 ∧ ∀ b ∈ l, size b ≤ size a := by
  have hbound (b : α) (hb : b ∈ l) : size b ≤ (l.map size).max?.getD 0 :=
    List.le_max?_getD_of_mem (List.mem_map_of_mem hb)
  have hsizes : l.map size ≠ [] := fun hnil => h (List.map_eq_nil_iff.1 hnil)
  obtain ⟨greatest, hgreatest⟩ := Option.isSome_iff_exists.1 (List.isSome_max?_of_ne_nil hsizes)
  rw [hgreatest, Option.getD_some] at hbound ⊢
  obtain ⟨a, ha, rfl⟩ := List.mem_map.1 (List.max?_mem hgreatest)
  exact ⟨a, ha, rfl, hbound⟩

theorem utf8ByteSize_le_separatorColumn {pair : String × String} (h : pair ∈ info) :
    4 + pair.1.utf8ByteSize ≤ separatorColumn info := by
  rw [separatorColumn]
  apply Nat.add_le_add_left
  exact List.le_max?_getD_of_mem (List.mem_map_of_mem (f := fun pair => pair.1.utf8ByteSize) h)

/-- A block is tight exactly when a key of most bytes is ASCII. -/
theorem isTight_iff (h : info ≠ []) :
    IsTight info ↔ ∃ pair ∈ info, Text.IsAscii pair.1 ∧
      ∀ other ∈ info, other.1.utf8ByteSize ≤ pair.1.utf8ByteSize := by
  constructor
  · intro htight
    obtain ⟨longest, hlongest, -, hmost⟩ := exists_greatest (fun pair => pair.1.length) h
    have hcolumn : 4 + longest.1.length = separatorColumn info := htight longest hlongest hmost
    have hroom := utf8ByteSize_le_separatorColumn hlongest
    have hsize := Text.length_le_utf8ByteSize longest.1
    refine ⟨longest, hlongest, Text.length_eq_utf8ByteSize_iff.1 (by omega), ?_⟩
    intro other hother
    have := utf8ByteSize_le_separatorColumn hother
    omega
  · rintro ⟨widest, hwidest, hascii, hmost⟩ longest hlongest hlength
    obtain ⟨pair, hpair, hcolumn, -⟩ := exists_greatest (fun pair => pair.1.utf8ByteSize) h
    have hwide := hmost pair hpair
    have hroom := utf8ByteSize_le_separatorColumn hlongest
    have hsize := Text.length_le_utf8ByteSize longest.1
    have hlong := hlength widest hwidest
    rw [← Text.length_eq_utf8ByteSize_iff] at hascii
    simp only [separatorColumn, ← hcolumn] at hroom ⊢
    omega

/-! ## The text of a registry -/

/-- The lines of a block. -/
def blockLines (name : String) (info : List (String × String)) : List String :=
  ("-- sys: " ++ name ++ " --") ::
    if info.isEmpty then ["    -none-"]
    else info.map fun pair =>
      "    " ++ padLeft (separatorColumn info - 4) pair.1 ++ ": " ++ pair.2

theorem systemInfoBlock_eq (name : String) (info : List (String × String)) :
    systemInfoBlock name info = (blockLines name info).map (· ++ "\n") := by
  rw [systemInfoBlock, blockLines, separatorColumn, Nat.add_sub_cancel_left, List.map_cons]
  congr 1
  · have hend : " --\n" = " --" ++ "\n" := rfl
    rw [hend, ← String.append_assoc]
  · split
    · rfl
    · rw [List.map_map]
      rfl

/-- What is padded in front ends where the room ends. -/
theorem isPairLine_padLeft {pair : String × String} (h : pair ∈ info) :
    IsPairLine (separatorColumn info) pair
      ("    " ++ padLeft (separatorColumn info - 4) pair.1 ++ ": " ++ pair.2) := by
  have hroom := utf8ByteSize_le_separatorColumn h
  have hsize := Text.length_le_utf8ByteSize pair.1
  refine ⟨4 + (separatorColumn info - 4 - pair.1.length), Nat.le_add_right 4 _, by omega, ?_⟩
  have hindent : "    " = String.ofList (List.replicate 4 ' ') := rfl
  rw [padLeft, hindent, List.replicate_add, String.ofList_append, ← String.append_assoc]

theorem isBlock_blockLines (name : String) (info : List (String × String)) :
    IsBlock name info (blockLines name info) := by
  rw [blockLines]
  split
  · next hempty => exact .nothing (List.isEmpty_iff.1 hempty)
  · next hsome =>
    refine .pairs _ (fun hnil => hsome (List.isEmpty_iff.2 hnil)) ?_
    rw [List.forall₂_map_right_iff, List.forall₂_same]
    exact fun pair hpair => isPairLine_padLeft hpair

/-- No name of an entry, and nothing that a plug-in tells, has a line feed in it. -/
def HasPlainInfo (registry : Registry σ) : Prop :=
  ∀ entry ∈ registry.entries, '\n' ∉ entry.name.toList ∧
    ∀ pair ∈ entry.plugin.systemInfo, '\n' ∉ pair.1.toList ∧ '\n' ∉ pair.2.toList

theorem lineFeed_notMem_blockLines {name : String} (hname : '\n' ∉ name.toList)
    (hinfo : ∀ pair ∈ info, '\n' ∉ pair.1.toList ∧ '\n' ∉ pair.2.toList) :
    ∀ line ∈ blockLines name info, '\n' ∉ line.toList := by
  rw [blockLines, List.forall_mem_cons]
  refine ⟨by simp [hname], fun line hline => ?_⟩
  split at hline
  · rw [List.mem_singleton.1 hline]
    decide
  · obtain ⟨pair, hpair, rfl⟩ := List.mem_map.1 hline
    obtain ⟨spaces, -, -, hpadded⟩ := isPairLine_padLeft hpair
    rw [hpadded]
    simp [hinfo pair hpair]

theorem renderSystemInfo_eq (registry : Registry σ) :
    registry.renderSystemInfo =
      String.join ((registry.entries.flatMap fun entry =>
        blockLines entry.name entry.plugin.systemInfo).map (· ++ "\n")) := by
  rw [renderSystemInfo, systemInfo, List.flatMap_map, List.map_flatMap]
  simp only [systemInfoBlock_eq]

/-- The text has one block for every object that was registered, in the order in which the
objects first came: a headline, and either one line for every pair, in order and with all the
separators at one column, or the word that there is none. When nothing that it is made of has
a line feed in it, these are the lines of the text. A key of most characters comes directly
behind the indent when a key of most bytes is ASCII, and in no other block. -/
theorem system_info_is_tight_unless_wide (registrations : List (Registration σ)) :
    let registry := (∅ : Registry σ).registerEach registrations
    registry.entries.map (·.plugin.identity) = Registration.objects registrations ∧
    ∃ blocks : List (List String),
      List.Forall₂ (fun entry lines => IsBlock entry.name entry.plugin.systemInfo lines)
        registry.entries blocks ∧
      registry.renderSystemInfo = String.join (blocks.flatten.map (· ++ "\n")) ∧
      (registry.HasPlainInfo → registry.renderSystemInfo.toList.splitOn '\n' =
        blocks.flatten.map String.toList ++ [[]]) ∧
      ∀ entry ∈ registry.entries, entry.plugin.systemInfo ≠ [] →
        (IsTight entry.plugin.systemInfo ↔
          ∃ pair ∈ entry.plugin.systemInfo, Text.IsAscii pair.1 ∧
            ∀ other ∈ entry.plugin.systemInfo,
              other.1.utf8ByteSize ≤ pair.1.utf8ByteSize) := by
  intro registry
  have h : registry.Represents registrations := represents_registerEach registrations
  have hrender := registry.renderSystemInfo_eq
  rw [List.flatMap_def] at hrender
  refine ⟨h.identities, registry.entries.map fun entry : RegistryEntry σ =>
    blockLines entry.name entry.plugin.systemInfo, ?blocks, hrender, ?lines,
    fun entry _ hinfo => isTight_iff hinfo⟩
  case blocks =>
    rw [List.forall₂_map_right_iff, List.forall₂_same]
    exact fun entry _ => isBlock_blockLines entry.name entry.plugin.systemInfo
  case lines =>
    intro hplain
    rw [hrender]
    apply splitOn_join_lines
    intro line hline
    rw [← List.flatMap_def] at hline
    obtain ⟨entry, hentry, hline⟩ := List.mem_flatMap.1 hline
    obtain ⟨hname, hinfo⟩ := hplain entry hentry
    exact lineFeed_notMem_blockLines hname hinfo line hline

namespace WideKey

/-! A key of five characters and seven bytes. -/

/-- A plug-in with two keys, the longer one with two letters beyond ASCII. -/
def page : Plugin Unit where
  identity := "page"
  typeName := "Alpha"
  systemInfo := [("größe", "3"), ("typ", "x")]

/-- The registry that holds this plug-in alone. -/
def registry : Registry Unit := (∅ : Registry Unit).registerEach [⟨"site", .fileTracer, page⟩]

/-- No text of the plug-in breaks its line. -/
theorem hasPlainInfo : registry.HasPlainInfo := by
  rw [HasPlainInfo]
  decide +kernel

/-- The plug-in has the name that its module and its type give. -/
theorem entries_registry : registry.entries = [⟨"site.Alpha", page⟩] := by
  rfl

/-- The text is cut into the lines of one block, which would be tight just if a key of most
bytes were ASCII. -/
theorem lines_of_registry :
    (∃ blocks : List (List String),
      List.Forall₂ (fun entry lines => IsBlock entry.name entry.plugin.systemInfo lines)
        registry.entries blocks ∧
      registry.renderSystemInfo.toList.splitOn '\n' =
        blocks.flatten.map String.toList ++ [[]]) ∧
    (IsTight page.systemInfo ↔ ∃ pair ∈ page.systemInfo, Text.IsAscii pair.1 ∧
      ∀ other ∈ page.systemInfo, other.1.utf8ByteSize ≤ pair.1.utf8ByteSize) := by
  obtain ⟨-, blocks, hblocks, -, hlines, htight⟩ :=
    system_info_is_tight_unless_wide [⟨"site", .fileTracer, page⟩]
  have hpage : ⟨"site.Alpha", page⟩ ∈ registry.entries := by
    rw [entries_registry]
    exact List.mem_cons_self
  exact ⟨⟨blocks, hblocks, hlines hasPlainInfo⟩, htight _ hpage (List.cons_ne_nil _ _)⟩

/-- There are two more spaces in front of the longest key than the indent has. -/
theorem longest_key_stands_apart :
    registry.renderSystemInfo =
      "-- sys: site.Alpha --\n      größe: 3\n        typ: x\n" ∧
    ¬ IsTight page.systemInfo := by
  decide +kernel

end WideKey

end Registry

end Coverage
