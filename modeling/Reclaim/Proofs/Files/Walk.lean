import Reclaim.Files.Walk

/-!
Walks compared. Each comparison is made twice: for a run over components up to the first link,
by induction on the components, and for a whole walk, by induction on the links that may still be
followed. A walk that arrives does so too in a larger tree, from a place that has not been lost,
and when components without meaning are dropped.
-/

namespace Reclaim.Files.Tree

open Reclaim.Path (isPart)

theorem scan_skip (tree : Tree) (followLast : Bool) (place : Place) {name : String}
    (rest : List String) (h : isPart name = false) :
    tree.scan followLast place (name :: rest) = tree.scan followLast place rest := by
  have : name = "" ∨ name = "." := by
    simpa [isPart, Decidable.or_iff_not_imp_left] using h
  rw [scan, if_pos this]

theorem scan_cons (tree : Tree) (followLast : Bool) (place : Place) (name : String)
    (rest : List String) :
    tree.scan followLast place (name :: rest) =
      if name = "" ∨ name = "." then tree.scan followLast place rest
      else if name = ".." then tree.scan followLast place.tail rest
      else if maxNameSize < name.utf8ByteSize then .failed (tree.overlong place)
      else match tree.get? (name :: place) with
        | none => .failed .missing
        | some .directory => tree.scan followLast (name :: place) rest
        | some (.file _) =>
            if rest = [] then .arrived (name :: place) else .failed .notDirectory
        | some (.link target) =>
            if rest = [] ∧ followLast = false then .arrived (name :: place)
            else .link place target rest := rfl

/-- A run fails at a name that is too long; no such name has a meaning of its own. -/
theorem scan_of_overlong (tree : Tree) (followLast : Bool) (place : Place) {name : String}
    (rest : List String) (h : maxNameSize < name.utf8ByteSize) :
    tree.scan followLast place (name :: rest) = .failed (tree.overlong place) := by
  have hstay : ¬(name = "" ∨ name = ".") := by
    rintro (rfl | rfl) <;> exact absurd h (by decide)
  have hup : name ≠ ".." := by
    rintro rfl
    exact absurd h (by decide)
  rw [scan_cons, if_neg hstay, if_neg hup, if_pos h]

section follow

variable {tree : Tree} {followLast : Bool} {links : Nat} {place : Place} {names : List String}

theorem follow_arrived {p : Place} (h : tree.scan followLast place names = .arrived p) :
    tree.follow followLast links place names = .ok p := by
  rw [follow, h]

theorem follow_failed {reason : Reason} (h : tree.scan followLast place names = .failed reason) :
    tree.follow followLast links place names = .error reason := by
  rw [follow, h]

theorem follow_link_zero {directory : Place} {target : String} {rest : List String}
    (h : tree.scan followLast place names = .link directory target rest) :
    tree.follow followLast 0 place names = .error .tooManyLinks := by
  rw [follow, h]

theorem follow_link_succ {directory : Place} {target : String} {rest : List String}
    (h : tree.scan followLast place names = .link directory target rest) :
    tree.follow followLast (links + 1) place names =
      tree.follow followLast links (start directory target) (components target ++ rest) := by
  rw [follow, h]

/-- A walk is over when no link is met, and goes on from the link that is met. -/
theorem follow_eq_ok {p : Place} (h : tree.follow followLast links place names = .ok p) :
    tree.scan followLast place names = .arrived p ∨
      ∃ directory target rest more, links = more + 1 ∧
        tree.scan followLast place names = .link directory target rest ∧
        tree.follow followLast more (start directory target) (components target ++ rest) =
          .ok p := by
  cases hscan : tree.scan followLast place names with
  | arrived q =>
      rw [follow_arrived hscan] at h
      exact .inl (congrArg Scan.arrived (Except.ok.inj h))
  | failed reason =>
      rw [follow_failed hscan] at h
      cases h
  | link directory target rest =>
      cases links with
      | zero =>
          rw [follow_link_zero hscan] at h
          cases h
      | succ more =>
          rw [follow_link_succ hscan] at h
          exact .inr ⟨directory, target, rest, more, rfl, rfl, h⟩

end follow

/-- What is so of runs that arrive at a place, and of runs that meet a link, is so of walks. -/
theorem follow_of_scan {tree tree' : Tree} {followLast followLast' : Bool} {p : Place}
    (arrived : ∀ place names, tree'.scan followLast' place names = .arrived p →
      tree.scan followLast place names = .arrived p)
    (link : ∀ place names directory target rest,
      tree'.scan followLast' place names = .link directory target rest →
      tree.scan followLast place names = .link directory target rest)
    {links : Nat} {place : Place} {names : List String}
    (hok : tree'.follow followLast' links place names = .ok p) :
    tree.follow followLast links place names = .ok p := by
  induction links generalizing place names with
  | zero =>
      rcases follow_eq_ok hok with hscan | ⟨_, _, _, _, hlinks, -, -⟩
      · exact follow_arrived (arrived _ _ hscan)
      · cases hlinks
  | succ links ih =>
      rcases follow_eq_ok hok with hscan | ⟨_, _, _, more, hlinks, hscan, hmore⟩
      · exact follow_arrived (arrived _ _ hscan)
      · obtain rfl : links = more := Nat.succ.inj hlinks
        rw [follow_link_succ (link _ _ _ _ _ hscan)]
        exact ih hmore

/-- A tree whose entries are all in another one. -/
def Within (tree' tree : Tree) : Prop :=
  ∀ place entry, tree'.get? place = some entry → tree.get? place = some entry

theorem overlong_within {tree tree' : Tree} (h : tree'.Within tree) (place : Place) :
    tree'.overlong place = .missing ∨ tree'.overlong place = tree.overlong place := by
  unfold overlong
  cases hget : tree'.get? place with
  | none => exact .inl rfl
  | some entry => exact .inr (by rw [h _ _ hget])

/-- A run misses an entry that only the larger tree has, or is the same in both. -/
theorem scan_within {tree tree' : Tree} (h : tree'.Within tree) (followLast : Bool)
    (place : Place) (names : List String) :
    tree'.scan followLast place names = .failed .missing ∨
      tree'.scan followLast place names = tree.scan followLast place names := by
  induction names generalizing place with
  | nil => exact .inr rfl
  | cons name rest ih =>
      simp only [scan]
      split
      · exact ih place
      · split
        · exact ih place.tail
        · split
          · exact (overlong_within h place).imp (congrArg _) (congrArg _)
          · cases hget : tree'.get? (name :: place) with
            | none => exact .inl rfl
            | some entry =>
                rw [h _ _ hget]
                cases entry with
                | directory => exact ih (name :: place)
                | file content => exact .inr rfl
                | link target => exact .inr rfl

theorem follow_within {tree tree' : Tree} (h : tree'.Within tree) (followLast : Bool)
    (links : Nat) (place : Place) (names : List String) :
    tree'.follow followLast links place names = .error .missing ∨
      tree'.follow followLast links place names = tree.follow followLast links place names := by
  induction links generalizing place names with
  | zero =>
      rcases scan_within h followLast place names with hmissing | heq
      · exact .inl (follow_failed hmissing)
      · exact .inr (by rw [follow, follow, heq])
  | succ links ih =>
      rcases scan_within h followLast place names with hmissing | heq
      · exact .inl (follow_failed hmissing)
      · rw [follow, follow, heq]
        cases tree.scan followLast place names with
        | arrived p => exact .inr rfl
        | failed reason => exact .inr rfl
        | link directory target rest => exact ih _ _

/-- A walk that arrives does so too in a larger tree. -/
theorem follow_of_within {tree tree' : Tree} (h : tree'.Within tree) {followLast : Bool}
    {links : Nat} {place p : Place} {names : List String}
    (hok : tree'.follow followLast links place names = .ok p) :
    tree.follow followLast links place names = .ok p := by
  rcases follow_within h followLast links place names with hmissing | heq
  · rw [hmissing] at hok
    cases hok
  · exact heq ▸ hok

/-- The place of a directory as it is known from inside when directories on the way to it are
lost. -/
inductive Lost : Place → Place → Prop
  | nothing (place : Place) : Lost place place
  | more (name : String) {place' place : Place} (h : Lost place' place) :
      Lost ("" :: place') (name :: place)

theorem lost_detach (tree : Tree) (place : Place) : Lost (tree.detach place) place := by
  induction place with
  | nil => exact .nothing []
  | cons name around ih =>
      unfold detach
      split
      · exact .nothing _
      · exact .more name ih

theorem Lost.tail {place' place : Place} (h : Lost place' place) :
    Lost place'.tail place.tail := by
  cases h with
  | nothing => exact .nothing _
  | more name h => exact h

theorem Lost.eq_or_mem {place' place : Place} (h : Lost place' place) :
    place' = place ∨ "" ∈ place' := by
  cases h with
  | nothing => exact .inl rfl
  | more name h => exact .inr List.mem_cons_self

theorem Lost.trans {place₁ place₂ place₃ : Place} (h : Lost place₁ place₂)
    (h' : Lost place₂ place₃) : Lost place₁ place₃ := by
  induction h generalizing place₃ with
  | nothing => exact h'
  | more name h ih =>
      cases h' with
      | nothing => exact .more name h
      | more name' h' => exact .more name' (ih h')

theorem scan_lost (tree : Tree) (followLast : Bool) {place' place : Place}
    (h : Lost place' place) (names : List String) :
    tree.scan followLast place' names = .failed .missing ∨
      (∃ p' p, tree.scan followLast place' names = .arrived p' ∧
        tree.scan followLast place names = .arrived p ∧ Lost p' p) ∨
      tree.scan followLast place' names = tree.scan followLast place names := by
  induction names generalizing place' place with
  | nil => exact .inr (.inl ⟨_, _, rfl, rfl, h⟩)
  | cons name rest ih =>
      simp only [scan]
      split
      · exact ih h
      · split
        · exact ih h.tail
        · cases h with
          | nothing => exact .inr (.inr rfl)
          | @more lost q' q h =>
              -- under a lost name no name is found, whatever the tree holds elsewhere
              have hnone : tree.get? (name :: "" :: q') = none :=
                tree.get?_of_empty_mem (by simp)
              have hgone : tree.get? ("" :: q') = none := tree.get?_of_empty_mem (by simp)
              rw [hnone, overlong, if_pos hgone]
              split <;> exact .inl rfl

theorem follow_lost (tree : Tree) (followLast : Bool) (links : Nat) {place' place : Place}
    (h : Lost place' place) (names : List String) :
    tree.follow followLast links place' names = .error .missing ∨
      (∃ p' p, tree.follow followLast links place' names = .ok p' ∧
        tree.follow followLast links place names = .ok p ∧ Lost p' p) ∨
      tree.follow followLast links place' names = tree.follow followLast links place names := by
  rcases scan_lost tree followLast h names with hmissing | ⟨p', p, hp', hp, hlost⟩ | heq
  · exact .inl (follow_failed hmissing)
  · exact .inr (.inl ⟨p', p, follow_arrived hp', follow_arrived hp, hlost⟩)
  · exact .inr (.inr (by unfold follow; rw [heq]))

theorem follow_of_lost {tree : Tree} {followLast : Bool} {links : Nat} {place' place p' : Place}
    {names : List String} (h : Lost place' place)
    (hok : tree.follow followLast links place' names = .ok p') :
    ∃ p, tree.follow followLast links place names = .ok p ∧ (p' = p ∨ "" ∈ p') := by
  rcases follow_lost tree followLast links h names with hmissing | ⟨q', q, hq', hq, hlost⟩ | heq
  · rw [hmissing] at hok
    cases hok
  · obtain rfl : q' = p' := Except.ok.inj (hq'.symm.trans hok)
    exact ⟨q, hq, hlost.eq_or_mem⟩
  · exact ⟨p', heq ▸ hok, .inl rfl⟩

/-- A run that does not end at a link to be followed is the same whether or not the final
component is followed. -/
theorem scan_true (tree : Tree) (place : Place) (names : List String) :
    (∃ p target, tree.scan false place names = .arrived p ∧
        tree.get? p = some (.link target)) ∨
      tree.scan true place names = tree.scan false place names := by
  induction names generalizing place with
  | nil => exact .inr rfl
  | cons name rest ih =>
      simp only [scan]
      split
      · exact ih place
      · split
        · exact ih place.tail
        · split
          · exact .inr rfl
          · cases hget : tree.get? (name :: place) with
            | none => exact .inr rfl
            | some entry =>
                cases entry with
                | directory => exact ih (name :: place)
                | file content => exact .inr rfl
                | link target =>
                    by_cases hrest : rest = []
                    · exact .inl ⟨name :: place, target, by simp [hrest], hget⟩
                    · exact .inr (by simp [hrest])

/-- A path that names an entry which is no link leads there when links are followed, too. -/
theorem follow_true {tree : Tree} {links : Nat} {place p : Place} {names : List String}
    (hok : tree.follow false links place names = .ok p)
    (hlink : ∀ target, tree.get? p ≠ some (.link target)) :
    tree.follow true links place names = .ok p := by
  apply follow_of_scan _ _ hok
  · intro place names hscan
    rcases scan_true tree place names with ⟨q, target, hq, hget⟩ | heq
    · obtain rfl : q = p := by simpa [hq] using hscan
      exact absurd hget (hlink target)
    · exact heq ▸ hscan
  · intro place names directory target rest hscan
    rcases scan_true tree place names with ⟨q, target, hq, -⟩ | heq
    · simp [hq] at hscan
    · exact heq ▸ hscan

/-- A run to a final component goes the way of a run to the directory around it. -/
theorem scan_snoc (tree : Tree) (followLast : Bool) (place : Place) (before : List String)
    (name : String) :
    (∃ q, tree.scan true place (before ++ [""]) = .arrived q ∧
        tree.scan followLast place (before ++ [name]) = tree.scan followLast q [name]) ∨
      (∃ reason, tree.scan true place (before ++ [""]) = .failed reason ∧
        tree.scan followLast place (before ++ [name]) = .failed reason) ∨
      ∃ directory target rest,
        tree.scan true place (before ++ [""]) = .link directory target (rest ++ [""]) ∧
        tree.scan followLast place (before ++ [name]) =
          .link directory target (rest ++ [name]) := by
  induction before generalizing place with
  | nil =>
      left
      exact ⟨place, by simp [scan], rfl⟩
  | cons part before ih =>
      rw [List.cons_append, List.cons_append, scan_cons tree true place part,
        scan_cons tree followLast place part]
      split
      · exact ih place
      · split
        · exact ih place.tail
        · split
          · exact .inr (.inl ⟨_, rfl, rfl⟩)
          · -- something follows in both runs, so a file stops both and a link is met by both
            cases tree.get? (part :: place) with
            | none => exact .inr (.inl ⟨_, rfl, rfl⟩)
            | some entry =>
                cases entry with
                | directory => exact ih (part :: place)
                | file content => exact .inr (.inl ⟨.notDirectory, by simp, by simp⟩)
                | link target =>
                    exact .inr (.inr ⟨place, target, before, by simp, by simp⟩)

theorem scan_slash (tree : Tree) (place : Place) (names : List String) :
    (∃ q, tree.scan true place names = .arrived q ∧
        ((∃ content, tree.get? q = some (.file content)) ∨
          tree.scan true place (names ++ [""]) = .arrived q)) ∨
      (∃ reason, tree.scan true place names = .failed reason) ∨
      ∃ directory target rest, tree.scan true place names = .link directory target rest ∧
        tree.scan true place (names ++ [""]) = .link directory target (rest ++ [""]) := by
  induction names generalizing place with
  | nil => exact .inl ⟨place, rfl, .inr (by simp [scan])⟩
  | cons name names ih =>
      rw [List.cons_append, scan_cons tree true place name names,
        scan_cons tree true place name (names ++ [""])]
      split
      · exact ih place
      · split
        · exact ih place.tail
        · split
          · exact .inr (.inl ⟨_, rfl⟩)
          · cases hget : tree.get? (name :: place) with
            | none => exact .inr (.inl ⟨_, rfl⟩)
            | some entry =>
                cases entry with
                | directory => exact ih (name :: place)
                | file content =>
                    by_cases hnames : names = []
                    · exact .inl ⟨name :: place, by simp [hnames], .inl ⟨content, hget⟩⟩
                    · exact .inr (.inl ⟨.notDirectory, by simp [hnames]⟩)
                | link target => exact .inr (.inr ⟨place, target, names, by simp, by simp⟩)

/-- A path that leads to no file leads to the same place with a slash after it. -/
theorem follow_slash {tree : Tree} {links : Nat} {place p : Place} {names : List String}
    (hok : tree.follow true links place names = .ok p)
    (hfile : ∀ content, tree.get? p ≠ some (.file content)) :
    tree.follow true links place (names ++ [""]) = .ok p := by
  have harrived : ∀ {links place names q}, tree.scan true place names = .arrived q →
      (∃ content, tree.get? q = some (.file content)) ∨
        tree.scan true place (names ++ [""]) = .arrived q →
      tree.follow true links place names = .ok p →
      tree.follow true links place (names ++ [""]) = .ok p := by
    intro links place names q hq hslash hok
    obtain rfl : q = p := Except.ok.inj ((follow_arrived hq).symm.trans hok)
    rcases hslash with ⟨content, hget⟩ | hslash
    · exact absurd hget (hfile content)
    · exact follow_arrived hslash
  induction links generalizing place names with
  | zero =>
      rcases tree.scan_slash place names with
        ⟨q, hq, hslash⟩ | ⟨reason, hfail⟩ | ⟨_, _, _, hlink, -⟩
      · exact harrived hq hslash hok
      · rw [follow_failed hfail] at hok
        cases hok
      · rw [follow_link_zero hlink] at hok
        cases hok
  | succ links ih =>
      rcases tree.scan_slash place names with
        ⟨q, hq, hslash⟩ | ⟨reason, hfail⟩ | ⟨_, _, _, hlink, hslash⟩
      · exact harrived hq hslash hok
      · rw [follow_failed hfail] at hok
        cases hok
      · rw [follow_link_succ hlink] at hok
        rw [follow_link_succ hslash, ← List.append_assoc]
        exact ih hok

theorem scan_final {tree : Tree} {q p : Place} {name : String} (his : isPart name = true)
    (hup : name ≠ "..") :
    tree.scan false q [name] = .arrived p ↔
      name.utf8ByteSize ≤ maxNameSize ∧ tree.get? (name :: q) ≠ none ∧ p = name :: q := by
  have hskip : ¬(name = "" ∨ name = ".") := by
    simpa [isPart, not_or] using his
  rw [scan_cons, if_neg hskip, if_neg hup]
  split
  · rename_i hlong
    simp [Nat.not_le.mpr hlong]
  · rename_i hlong
    have hsize := Nat.not_lt.mp hlong
    cases hget : tree.get? (name :: q) with
    | none => simp
    | some entry => cases entry <;> simp [scan, hsize, eq_comm]

theorem scan_final_ne_link (tree : Tree) (q : Place) (name : String) (directory : Place)
    (target : String) (rest : List String) :
    tree.scan false q [name] ≠ .link directory target rest := by
  rw [scan_cons]
  repeat' split
  all_goals simp_all [scan]

/-- The entry that a path with a final name leads to is found under that name in the directory
that the rest of the path leads to. -/
theorem follow_snoc {tree : Tree} {links : Nat} {place p : Place} {before : List String}
    {name : String} (his : isPart name = true) (hup : name ≠ "..") :
    tree.follow false links place (before ++ [name]) = .ok p ↔
      ∃ q, tree.follow true links place (before ++ [""]) = .ok q ∧
        name.utf8ByteSize ≤ maxNameSize ∧ tree.get? (name :: q) ≠ none ∧ p = name :: q := by
  have harrived : ∀ {links place before q},
      tree.scan true place (before ++ [""]) = .arrived q →
      tree.scan false place (before ++ [name]) = tree.scan false q [name] →
      (tree.follow false links place (before ++ [name]) = .ok p ↔
        ∃ q, tree.follow true links place (before ++ [""]) = .ok q ∧
          name.utf8ByteSize ≤ maxNameSize ∧ tree.get? (name :: q) ≠ none ∧ p = name :: q) := by
    intro links place before q hq heq
    rw [follow_arrived hq]
    constructor
    · intro hok
      rcases follow_eq_ok hok with hscan | ⟨_, _, _, _, -, hscan, -⟩
      · exact ⟨q, rfl, (scan_final his hup).mp (heq ▸ hscan)⟩
      · exact absurd (heq ▸ hscan) (tree.scan_final_ne_link q name _ _ _)
    · rintro ⟨q', hq', hrest⟩
      obtain rfl : q = q' := Except.ok.inj hq'
      exact follow_arrived (heq.trans ((scan_final his hup).mpr hrest))
  induction links generalizing place before with
  | zero =>
      rcases tree.scan_snoc false place before name with
        ⟨q, hq, heq⟩ | ⟨reason, hq, heq⟩ | ⟨d, target, rest, hq, heq⟩
      · exact harrived hq heq
      · rw [follow_failed hq, follow_failed heq]
        simp
      · rw [follow_link_zero hq, follow_link_zero heq]
        simp
  | succ links ih =>
      rcases tree.scan_snoc false place before name with
        ⟨q, hq, heq⟩ | ⟨reason, hq, heq⟩ | ⟨d, target, rest, hq, heq⟩
      · exact harrived hq heq
      · rw [follow_failed hq, follow_failed heq]
        simp
      · rw [follow_link_succ hq, follow_link_succ heq, ← List.append_assoc, ← List.append_assoc]
        exact ih

/-- How a run may end, beside another one, when components without meaning are dropped from the
end of its path and the final entry is not followed. -/
def Shortens (short full : Scan) : Prop :=
  (∃ reason, full = .failed reason) ∨ (∃ p, short = .arrived p) ∨
    ∃ directory target first last, full = .link directory target (first ++ last) ∧
      short = .link directory target (first ++ last.filter isPart)

theorem shortens_cons {tree : Tree} {followLast : Bool} (name : String) {first last : List String}
    (ih : ∀ place, Shortens (tree.scan false place (first ++ last.filter isPart))
      (tree.scan followLast place (first ++ last))) (place : Place) :
    Shortens (tree.scan false place (name :: (first ++ last.filter isPart)))
      (tree.scan followLast place (name :: (first ++ last))) := by
  rw [scan_cons tree followLast, scan_cons tree false]
  split
  · exact ih place
  · split
    · exact ih place.tail
    · split
      · exact .inl ⟨_, rfl⟩
      · cases tree.get? (name :: place) with
        | none => exact .inl ⟨_, rfl⟩
        | some entry =>
            cases entry with
            | directory => exact ih (name :: place)
            | file content =>
                by_cases hrest : first ++ last = []
                · obtain ⟨rfl, rfl⟩ := List.append_eq_nil_iff.mp hrest
                  exact .inr (.inl ⟨name :: place, rfl⟩)
                · exact .inl ⟨.notDirectory, by simp [hrest]⟩
            | link target =>
                -- the run over fewer components may end at a link that the other one follows
                by_cases hrest : first ++ last.filter isPart = []
                · exact .inr (.inl ⟨name :: place, by simp [hrest]⟩)
                · have hrest' : first ++ last ≠ [] := by
                    intro h0
                    obtain ⟨rfl, rfl⟩ := List.append_eq_nil_iff.mp h0
                    exact hrest rfl
                  exact .inr (.inr ⟨place, target, first, last, by simp [hrest'],
                    by simp [hrest]⟩)

/-- A run over components ends no later when those without meaning are dropped from its end. -/
theorem scan_filter (tree : Tree) (followLast : Bool) (place : Place)
    (first last : List String) :
    Shortens (tree.scan false place (first ++ last.filter isPart))
      (tree.scan followLast place (first ++ last)) := by
  induction first generalizing place with
  | nil =>
      induction last generalizing place with
      | nil => exact .inr (.inl ⟨place, rfl⟩)
      | cons name last ih =>
          cases his : isPart name with
          | true =>
              rw [List.filter_cons_of_pos his]
              exact shortens_cons name ih place
          | false =>
              rw [List.filter_cons_of_neg (by simp [his])]
              have hskip := tree.scan_skip followLast place last his
              simp only [List.nil_append] at ih ⊢
              rw [hskip]
              exact ih place
  | cons name first ih => exact shortens_cons name ih place

/-- What a path leads to, links followed or not, is found at an entry that the path names without
the components that carry no meaning. -/
theorem follow_filter {tree : Tree} {followLast : Bool} {links : Nat} {place p : Place}
    {first last : List String}
    (hok : tree.follow followLast links place (first ++ last) = .ok p) :
    ∃ p', tree.follow false links place (first ++ last.filter isPart) = .ok p' := by
  induction links generalizing place first last with
  | zero =>
      rcases tree.scan_filter followLast place first last with
        ⟨reason, hfail⟩ | ⟨q, hq⟩ | ⟨d, target, first', last', hlink, -⟩
      · rw [follow_failed hfail] at hok
        cases hok
      · exact ⟨q, follow_arrived hq⟩
      · rw [follow_link_zero hlink] at hok
        cases hok
  | succ links ih =>
      rcases tree.scan_filter followLast place first last with
        ⟨reason, hfail⟩ | ⟨q, hq⟩ | ⟨d, target, first', last', hlink, hlink'⟩
      · rw [follow_failed hfail] at hok
        cases hok
      · exact ⟨q, follow_arrived hq⟩
      · rw [follow_link_succ hlink, ← List.append_assoc] at hok
        rw [follow_link_succ hlink', ← List.append_assoc]
        exact ih hok

end Reclaim.Files.Tree
