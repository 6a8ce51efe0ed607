import Mathlib.Algebra.GroupWithZero.Nat
import Mathlib.Data.List.Basic
import Reclaim.Path.Basic

/-!
The text of a path beside the text that the path was read from. Reading drops components that
carry no meaning and keeps how the path is rooted, so the text that is written has the same parts,
begins where the first one does, is no longer, and holds no character of its own but slashes and
a dot.
-/

namespace Reclaim

theorem splitSlash_eq_splitOn (cs : List Char) : splitSlash cs = cs.splitOn '/' := by
  induction cs with
  | nil => rfl
  | cons c cs ih =>
      rw [List.splitOn_cons_eq_if_modifyHead, ← ih, splitSlash]
      by_cases hc : c = '/'
      · simp [hc]
      · cases h : splitSlash cs with
        | nil => exact absurd h (splitSlash_ne_nil cs)
        | cons piece pieces => simp [hc]

theorem intercalate_components (text : String) : "/".intercalate (components text) = text := by
  apply String.toList_injective
  have hmap : (components text).map String.toList = text.toList.splitOn '/' := by
    simp [components, splitSlash_eq_splitOn, Function.comp_def]
  rw [String.toList_intercalate, hmap]
  exact List.intercalate_splitOn '/'

theorem components_intercalate {parts : List String} (hne : parts ≠ [])
    (h : ∀ part ∈ parts, '/' ∉ part.toList) : components ("/".intercalate parts) = parts := by
  have hsplit : ((['/'] : List Char).intercalate (parts.map String.toList)).splitOn '/' =
      parts.map String.toList := by
    apply List.splitOn_intercalate
    · intro l hl
      obtain ⟨part, hpart, rfl⟩ := List.mem_map.mp hl
      exact h part hpart
    · simpa using hne
  rw [components, String.toList_intercalate, splitSlash_eq_splitOn]
  show ((['/'] : List Char).intercalate _ |>.splitOn '/').map String.ofList = parts
  rw [hsplit]
  simp [Function.comp_def]

theorem components_slash (text : String) : components ("/" ++ text) = "" :: components text := by
  simp [components, splitSlash]

theorem mem_of_splitSlash {cs piece : List Char} {c : Char} (h : piece ∈ splitSlash cs)
    (hc : c ∈ piece) : c ∈ cs ∧ c ≠ '/' := by
  induction cs generalizing piece with
  | nil =>
      obtain rfl : piece = [] := by simpa [splitSlash] using h
      cases hc
  | cons d cs ih =>
      have hrest : ∀ {piece}, piece ∈ splitSlash cs → c ∈ piece → c ∈ d :: cs ∧ c ≠ '/' :=
        fun hp hc => (ih hp hc).imp_left (List.mem_cons_of_mem d)
      unfold splitSlash at h
      split at h
      · rcases List.mem_cons.mp h with rfl | h
        · cases hc
        · exact hrest h hc
      · rename_i hd
        cases hs : splitSlash cs with
        | nil => exact absurd hs (splitSlash_ne_nil cs)
        | cons first others =>
            rw [hs] at h hrest
            rcases List.mem_cons.mp h with rfl | h
            · rcases List.mem_cons.mp hc with rfl | hc
              · exact ⟨List.mem_cons_self, hd⟩
              · exact hrest List.mem_cons_self hc
            · exact hrest (List.mem_cons_of_mem _ h) hc

theorem mem_of_components {text part : String} {c : Char} (h : part ∈ components text)
    (hc : c ∈ part.toList) : c ∈ text.toList ∧ c ≠ '/' := by
  obtain ⟨piece, hpiece, rfl⟩ := List.mem_map.mp h
  rw [String.toList_ofList] at hc
  exact mem_of_splitSlash hpiece hc

/-- A text has the bytes of its components and one for each slash between them. -/
theorem utf8ByteSize_intercalate {parts : List String} (h : parts ≠ []) :
    ("/".intercalate parts).utf8ByteSize + 1 = (parts.map (·.utf8ByteSize + 1)).sum := by
  induction parts with
  | nil => exact absurd rfl h
  | cons part rest ih =>
      cases rest with
      | nil => simp
      | cons next rest =>
          have hslash : "/".utf8ByteSize = 1 := by decide
          have ih := ih (by simp)
          rw [String.intercalate_cons_cons, String.utf8ByteSize_append,
            String.utf8ByteSize_append, hslash]
          simp only [List.map_cons, List.sum_cons] at ih ⊢
          omega

theorem mem_intercalate {parts : List String} {c : Char}
    (h : c ∈ ("/".intercalate parts).toList) : c = '/' ∨ ∃ part ∈ parts, c ∈ part.toList := by
  induction parts with
  | nil => simp at h
  | cons part rest ih =>
      cases rest with
      | nil => exact .inr ⟨part, List.mem_cons_self, by simpa using h⟩
      | cons next rest =>
          rw [String.intercalate_cons_cons] at h
          simp only [String.toList_append, List.mem_append] at h
          rcases h with (h | h) | h
          · exact .inr ⟨part, List.mem_cons_self, h⟩
          · exact .inl (by simpa using h)
          · rcases ih h with hc | ⟨p, hp, hc⟩
            · exact .inl hc
            · exact .inr ⟨p, List.mem_cons_of_mem _ hp, hc⟩

theorem sum_filter_le (p : String → Bool) (l : List String) :
    ((l.filter p).map (·.utf8ByteSize + 1)).sum ≤ (l.map (·.utf8ByteSize + 1)).sum := by
  induction l with
  | nil => simp
  | cons s l ih =>
      by_cases hs : p s = true
      · simp only [List.filter_cons_of_pos hs, List.map_cons, List.sum_cons]
        omega
      · simp only [List.filter_cons_of_neg hs, List.map_cons, List.sum_cons]
        omega

namespace Path

/-- A text is the anchor of its path followed by what the parts are read from. -/
theorem exists_rest (text : String) :
    ∃ rest, text = (ofText text).anchor.text ++ rest ∧
      (ofText text).parts = (components rest).filter isPart ∧
      ((ofText text).anchor = .relative → text.toList.head? ≠ some '/') := by
  have hslash : ∀ {cs : List Char}, text.toList = '/' :: cs →
      text = "/" ++ String.ofList cs := by
    intro cs hcs
    apply String.toList_injective
    simp [hcs]
  have hparts : ∀ rest : String, (components ("/" ++ rest)).filter isPart =
      (components rest).filter isPart := by
    intro rest
    rw [components_slash]
    rfl
  show ∃ rest, text = (Anchor.ofChars text.toList).text ++ rest ∧
    (components text).filter isPart = (components rest).filter isPart ∧
    (Anchor.ofChars text.toList = .relative → text.toList.head? ≠ some '/')
  unfold Anchor.ofChars
  split
  · rename_i cs hcs
    refine ⟨String.ofList ('/' :: '/' :: cs), hslash hcs, ?_, nofun⟩
    rw [hslash hcs, hparts]
  · rename_i cs _ hcs
    have htext : text = "/" ++ ("/" ++ String.ofList cs) := by
      apply String.toList_injective
      simp [hcs]
    refine ⟨String.ofList cs, ?_, ?_, nofun⟩
    · rw [htext]
      apply String.toList_injective
      simp [Anchor.text]
    · rw [htext, hparts, hparts]
  · rename_i cs _ _ hcs
    refine ⟨String.ofList cs, hslash hcs, ?_, nofun⟩
    rw [hslash hcs, hparts]
  · rename_i hne
    refine ⟨text, ?_, rfl, fun _ hhead => ?_⟩
    · apply String.toList_injective
      simp [Anchor.text]
    · cases hcs : text.toList with
      | nil => simp [hcs] at hhead
      | cons c cs =>
          obtain rfl : c = '/' := by simpa [hcs] using hhead
          exact hne cs hcs

theorem exists_body (p : Path) :
    ∃ body, p.text = p.anchor.text ++ body ∧
      (body = "." ∧ p.anchor = .relative ∧ p.parts = [] ∨ body = "/".intercalate p.parts) := by
  unfold Path.text
  split
  · rename_i h
    refine ⟨".", ?_, .inl ⟨rfl, h⟩⟩
    rw [h.1]
    rfl
  · exact ⟨_, rfl, .inr rfl⟩

/-- A path whose parts have been read from a text. -/
def IsRead (p : Path) : Prop :=
  ∀ part ∈ p.parts, isPart part = true ∧ '/' ∉ part.toList

theorem isRead_ofText (text : String) : (ofText text).IsRead := by
  intro part hpart
  obtain ⟨hmem, his⟩ := List.mem_filter.mp hpart
  exact ⟨his, fun hc => (mem_of_components hmem hc).2 rfl⟩

theorem IsRead.child {base : Path} (h : base.IsRead) (part : String) :
    (base.child part).IsRead := by
  unfold Path.child join
  split
  · intro p hp
    rcases List.mem_append.mp hp with hp | hp
    · exact h p hp
    · exact isRead_ofText part p hp
  · exact isRead_ofText part

/-- The components of the text of a path are its parts, after some that carry no meaning. -/
theorem components_text {p : Path} (h : p.IsRead) :
    ∃ lead, (∀ c ∈ lead, isPart c = false) ∧ components p.text = lead ++ p.parts := by
  obtain ⟨body, htext, hbody⟩ := p.exists_body
  have hcomponents : ∃ lead, (∀ c ∈ lead, isPart c = false) ∧
      components body = lead ++ p.parts := by
    rcases hbody with ⟨rfl, -, hparts⟩ | rfl
    · exact ⟨["."], by decide, by rw [hparts]; decide⟩
    · by_cases hparts : p.parts = []
      · exact ⟨[""], by decide, by rw [hparts]; decide⟩
      · refine ⟨[], nofun, ?_⟩
        exact components_intercalate hparts fun part hpart => (h part hpart).2
  obtain ⟨lead, hlead, hcomp⟩ := hcomponents
  have hempty : isPart "" = false := by decide
  rw [htext]
  cases p.anchor with
  | relative => exact ⟨lead, hlead, by rw [← hcomp]; simp [Anchor.text]⟩
  | root =>
      refine ⟨"" :: lead, ?_, ?_⟩
      · simpa [hempty] using hlead
      · show components ("/" ++ body) = _
        rw [components_slash, hcomp]
        rfl
  | doubleRoot =>
      refine ⟨"" :: "" :: lead, ?_, ?_⟩
      · simpa [hempty] using hlead
      · have hdouble : Anchor.doubleRoot.text ++ body = "/" ++ ("/" ++ body) := by
          apply String.toList_injective
          simp [Anchor.text]
        rw [hdouble, components_slash, components_slash, hcomp]
        rfl

theorem text_ne_empty {p : Path} (h : p.IsRead) : p.text ≠ "" := by
  intro h0
  obtain ⟨lead, -, hcomponents⟩ := components_text h
  rw [h0] at hcomponents
  -- the only component of an empty text is empty, and no part is
  have hparts : p.parts = [] := by
    rw [List.eq_nil_iff_forall_not_mem]
    intro part hpart
    have hmem : part ∈ components "" := hcomponents ▸ List.mem_append_right _ hpart
    obtain rfl : part = "" := by simpa [components, splitSlash] using hmem
    exact absurd (h "" hpart).1 (by decide)
  cases hanchor : p.anchor <;> simp [Path.text, hparts, hanchor, Anchor.text] at h0

/-- The text of a path is no longer than the text that the path was read from. -/
theorem utf8ByteSize_text_ofText {text : String} (h : text ≠ "") :
    (ofText text).text.utf8ByteSize ≤ text.utf8ByteSize := by
  obtain ⟨body, hbodyText, hbody⟩ := (ofText text).exists_body
  obtain ⟨rest, hrest, hparts, -⟩ := exists_rest text
  rcases hbody with ⟨rfl, hanchor, -⟩ | rfl
  · have hpos : text.utf8ByteSize ≠ 0 := fun h0 => h (String.utf8ByteSize_eq_zero_iff.mp h0)
    have hone : (ofText text).text.utf8ByteSize = 1 := by
      rw [hbodyText, hanchor]
      decide
    omega
  · -- parts are dropped together with the slashes after them
    have hle : ("/".intercalate (ofText text).parts).utf8ByteSize ≤ rest.utf8ByteSize := by
      by_cases hnil : (ofText text).parts = []
      · simp [hnil]
      · have hsum := sum_filter_le isPart (components rest)
        have hparts' := utf8ByteSize_intercalate hnil
        have hcomponents : components rest ≠ [] := by
          intro h0
          exact hnil (by rw [hparts, h0]; rfl)
        have hrest' := utf8ByteSize_intercalate hcomponents
        rw [intercalate_components] at hrest'
        rw [← hparts] at hsum
        omega
    calc (ofText text).text.utf8ByteSize
        = (ofText text).anchor.text.utf8ByteSize +
            ("/".intercalate (ofText text).parts).utf8ByteSize := by
          rw [hbodyText, String.utf8ByteSize_append]
      _ ≤ (ofText text).anchor.text.utf8ByteSize + rest.utf8ByteSize :=
          Nat.add_le_add_left hle _
      _ = ((ofText text).anchor.text ++ rest).utf8ByteSize := (String.utf8ByteSize_append).symm
      _ = text.utf8ByteSize := by rw [← hrest]

theorem head?_intercalate {parts : List String}
    (h : ∀ part ∈ parts, isPart part = true ∧ '/' ∉ part.toList) :
    ("/".intercalate parts).toList.head? ≠ some '/' := by
  cases parts with
  | nil => simp
  | cons part rest =>
      obtain ⟨his, hslash⟩ := h part List.mem_cons_self
      have hhead : ("/".intercalate (part :: rest)).toList.head? = part.toList.head? := by
        cases hp : part.toList with
        | nil =>
            have : part = "" := String.toList_injective hp
            simp [isPart, this] at his
        | cons c cs => cases rest <;> simp [String.toList_intercalate, hp]
      rw [hhead]
      intro heq
      exact hslash (List.mem_of_mem_head? heq)

/-- The text of a path that has been read begins with a slash if the path is absolute. -/
theorem head?_text {p : Path} (h : p.IsRead) :
    p.text.toList.head? = some '/' ↔ p.isAbsolute = true := by
  cases hanchor : p.anchor with
  | relative =>
      refine iff_of_false ?_ (by simp [isAbsolute, hanchor])
      obtain ⟨body, htext, hbody⟩ := p.exists_body
      have hsame : p.text = body := by
        rw [htext, hanchor]
        apply String.toList_injective
        simp [Anchor.text]
      rw [hsame]
      rcases hbody with ⟨rfl, -, -⟩ | rfl
      · decide
      · exact head?_intercalate h
  | root =>
      refine iff_of_true ?_ (by simp [isAbsolute, hanchor])
      simp [Path.text, hanchor, Anchor.text]
  | doubleRoot =>
      refine iff_of_true ?_ (by simp [isAbsolute, hanchor])
      simp [Path.text, hanchor, Anchor.text]

/-- A path that is read from a text is absolute if the text begins with a slash. -/
theorem isAbsolute_ofText (text : String) :
    (ofText text).isAbsolute = true ↔ text.toList.head? = some '/' := by
  obtain ⟨rest, hrest, -, hrelative⟩ := exists_rest text
  cases hanchor : (ofText text).anchor with
  | relative => exact iff_of_false (by simp [isAbsolute, hanchor]) (hrelative hanchor)
  | root =>
      refine iff_of_true (by simp [isAbsolute, hanchor]) ?_
      rw [hrest, hanchor]
      simp [Anchor.text]
  | doubleRoot =>
      refine iff_of_true (by simp [isAbsolute, hanchor]) ?_
      rw [hrest, hanchor]
      simp [Anchor.text]

/-- The text of a path begins at the root if the text does that the path was read from. -/
theorem head?_text_ofText (text : String) :
    (ofText text).text.toList.head? = some '/' ↔ text.toList.head? = some '/' :=
  (head?_text (isRead_ofText text)).trans (isAbsolute_ofText text)

/-- The text of a path holds slashes, a dot, and the characters of its parts. -/
theorem mem_text {p : Path} {c : Char} (h : c ∈ p.text.toList) :
    c = '/' ∨ c = '.' ∨ ∃ part ∈ p.parts, c ∈ part.toList := by
  obtain ⟨body, htext, hbody⟩ := p.exists_body
  rw [htext, String.toList_append, List.mem_append] at h
  rcases h with h | h
  · left
    cases hanchor : p.anchor with
    | relative => simp [hanchor, Anchor.text] at h
    | root => simpa [hanchor, Anchor.text] using h
    | doubleRoot => simpa [hanchor, Anchor.text] using h
  · rcases hbody with ⟨rfl, -, -⟩ | rfl
    · exact .inr (.inl (by simpa using h))
    · rcases mem_intercalate h with hc | hpart
      · exact .inl hc
      · exact .inr (.inr hpart)

theorem mem_text_ofText {text : String} {c : Char} (h : c ∈ (ofText text).text.toList) :
    c = '/' ∨ c = '.' ∨ c ∈ text.toList := by
  rcases mem_text h with hc | hc | ⟨part, hpart, hc⟩
  · exact .inl hc
  · exact .inr (.inl hc)
  · exact .inr (.inr (mem_of_components (List.mem_filter.mp hpart).1 hc).1)

end Path
end Reclaim
