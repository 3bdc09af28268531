import Mathlib.Data.List.DropRight
import ImageDimensions.Proofs.FileSystem.Walks

/-!
# Proofs/FileSystem/Front — what stands before the last name of a path

Cutting a path behind its last slash gives a path to a directory and a piece (`Path.front`,
`Path.lastPiece`).  If that piece is a name, the front takes all steps of the path but the last
(`Path.front_of_name`), and the last name of the path is looked up where the front leads, if that directory
may be searched (`FileSystem.walk_dropLast_named_iff`).

`Path.directory` cuts by other rules: it also forgets slashes and single dots before the name.  It leads to
the same place all the same, because a step that stays in a directory may be taken any number of times
(`FileSystem.walk_directory`).
-/

namespace ImageDimensions

/-! ## Pieces -/

theorem notMem_of_mem_splitOn {α : Type} [DecidableEq α] {a : α} :
    ∀ {l piece : List α}, piece ∈ l.splitOn a → a ∉ piece
  | [], piece, h => by
    rw [List.splitOn_nil, List.mem_singleton] at h
    simp [h]
  | x :: l, piece, h => by
    rw [List.splitOn_cons_eq_if_modifyHead] at h
    split at h
    · rcases List.mem_cons.1 h with rfl | h
      · simp
      · exact notMem_of_mem_splitOn h
    · rename_i hx
      obtain ⟨first, rest, hl⟩ := List.exists_cons_of_ne_nil (List.splitOn_ne_nil a l)
      rw [hl, List.modifyHead_cons] at h
      rcases List.mem_cons.1 h with rfl | h
      · have hfirst : a ∉ first := notMem_of_mem_splitOn (hl ▸ List.mem_cons_self)
        rw [List.mem_cons, not_or]
        exact ⟨fun he => hx (beq_iff_eq.2 he.symm), hfirst⟩
      · exact notMem_of_mem_splitOn (hl ▸ List.mem_cons_of_mem _ h)

/-- Whether a piece does not matter at the end of a path. -/
def Path.IsBlank (piece : List UInt8) : Prop := piece = [] ∨ piece = [dot]

instance : DecidablePred Path.IsBlank := fun _ => inferInstanceAs (Decidable (_ ∨ _))

/-- A step into a directory is taken by the piece that names it, which matters. -/
theorem Step.eq_of_ofPiece? {piece name : List UInt8} (h : ofPiece? piece = some (.into name)) :
    piece = name ∧ ¬ Path.IsBlank piece := by
  unfold ofPiece? at h
  split at h
  · cases h
  split at h
  · cases h
  split at h
  · cases h
  · rename_i hnil hdot _
    exact ⟨Step.into.inj (Option.some.inj h), not_or.2 ⟨hnil, hdot⟩⟩

theorem Step.exists_ofPiece? {piece : List UInt8} (h : piece ≠ []) :
    ∃ step, ofPiece? piece = some step := by
  unfold ofPiece?
  rw [if_neg h]
  split
  · exact ⟨_, rfl⟩
  · split <;> exact ⟨_, rfl⟩

namespace Path

variable {p : Path} {name : List UInt8}

theorem refusal?_eq_none_iff : p.refusal? = none ↔
    0 ∉ p.bytes ∧ p.bytes ≠ [] ∧ p.bytes.length ≤ lengthLimit := by
  unfold refusal?
  split
  · simp_all
  split
  · simp_all
  split
  · simp_all
  · simp_all

/-- A path starts at the root if nothing stands before its first slash. -/
theorem isAbsolute_iff {start : List UInt8} {rest : List (List UInt8)} (h : p.pieces = start :: rest) :
    p.isAbsolute ↔ start = [] ∧ rest ≠ [] := by
  have hstart : slash ∉ start := notMem_of_mem_splitOn (h ▸ List.mem_cons_self)
  have hbytes : [slash].intercalate (start :: rest) = p.bytes := h ▸ List.intercalate_splitOn slash
  rw [isAbsolute, decide_eq_true_eq, ← hbytes]
  cases rest with
  | nil =>
    rw [List.intercalate_singleton]
    constructor
    · exact fun hhead => absurd (List.mem_of_mem_head? hhead) hstart
    · exact fun hrest => absurd rfl hrest.2
  | cons piece rest =>
    rw [List.intercalate_cons_cons]
    cases start with
    | nil => simp
    | cons b start => simpa [eq_comm] using List.ne_of_not_mem_cons hstart

/-! ## Cutting behind the last slash -/

/-- The path up to its last slash, and with it: a path that demands a directory.  Without a slash it is
the working directory. -/
def front (p : Path) : Path :=
  if slash ∈ p.bytes then ⟨p.bytes.rdropWhile (· ≠ slash)⟩ else ⟨[dot]⟩

/-- The piece behind the last slash. -/
def lastPiece (p : Path) : List UInt8 := p.bytes.rtakeWhile (· ≠ slash)

theorem slash_notMem_lastPiece (p : Path) : slash ∉ p.lastPiece := fun h => by
  simpa using List.mem_rtakeWhile_imp h

theorem lastPiece_of_notMem (h : slash ∉ p.bytes) : p.lastPiece = p.bytes :=
  List.rtakeWhile_eq_self_iff.2 fun _ hb => decide_eq_true fun he => h (he ▸ hb)

/-- **A path with a slash is its front and its last piece.** -/
theorem exists_bytes_eq (h : slash ∈ p.bytes) :
    ∃ before, p.front = ⟨before ++ [slash]⟩ ∧ p.bytes = before ++ slash :: p.lastPiece := by
  have hne : p.bytes.rdropWhile (· ≠ slash) ≠ [] := fun he => by
    simpa using List.rdropWhile_eq_nil_iff.1 he slash h
  have hlast : (p.bytes.rdropWhile (· ≠ slash)).getLast hne = slash := by
    simpa using List.rdropWhile_last_not (· ≠ slash) p.bytes hne
  have hfront := List.dropLast_append_getLast hne
  rw [hlast] at hfront
  refine ⟨(p.bytes.rdropWhile (· ≠ slash)).dropLast, by rw [front, if_pos h, hfront], ?_⟩
  calc p.bytes = p.bytes.rdropWhile (· ≠ slash) ++ p.lastPiece :=
        List.rdropWhile_append_rtakeWhile.symm
    _ = _ := by rw [← hfront, List.append_assoc, List.singleton_append, hfront]

theorem lastPiece_ne_nil (hne : p.bytes ≠ []) (h : p.endsInSlash = false) : p.lastPiece ≠ [] := by
  intro hnil
  by_cases hmem : slash ∈ p.bytes
  · obtain ⟨before, -, hbytes⟩ := exists_bytes_eq hmem
    rw [endsInSlash, hbytes, hnil] at h
    simp at h
  · exact hne (lastPiece_of_notMem hmem ▸ hnil)

theorem refusal?_front (h : p.refusal? = none) : p.front.refusal? = none := by
  by_cases hmem : slash ∈ p.bytes
  · obtain ⟨before, hfront, hbytes⟩ := exists_bytes_eq hmem
    rw [refusal?_eq_none_iff, hbytes] at h
    rw [refusal?_eq_none_iff, hfront]
    simp only [List.mem_append, List.mem_cons, List.length_append, List.length_cons] at h ⊢
    refine ⟨?_, by simp, ?_⟩
    · simp only [List.not_mem_nil]
      tauto
    · simp only [List.length_nil]
      omega
  · rw [front, if_neg hmem]
    rfl

theorem isAbsolute_front (p : Path) : p.front.isAbsolute = p.isAbsolute := by
  by_cases hmem : slash ∈ p.bytes
  · obtain ⟨before, hfront, hbytes⟩ := exists_bytes_eq hmem
    rw [isAbsolute, isAbsolute, hfront, hbytes]
    cases before <;> rfl
  · have hp : p.isAbsolute = false := decide_eq_false fun h => hmem (List.mem_of_mem_head? h)
    rw [front, if_neg hmem, hp]
    rfl

theorem pieces_eq {before : List UInt8} (h : p.bytes = before ++ slash :: p.lastPiece) :
    p.pieces = before.splitOn slash ++ [p.lastPiece] := by
  rw [pieces, h, List.splitOn_append_cons_self, List.splitOn_eq_singleton p.slash_notMem_lastPiece]

/-- The front takes the steps before the last piece, and needs a directory: it ends in a slash, or is a
dot. -/
theorem exists_named_eq (p : Path) : ∃ before last, last.Stays ∧ p.front.steps = before ++ [last] ∧
    p.named = before ++ (Step.ofPiece? p.lastPiece).toList := by
  by_cases hmem : slash ∈ p.bytes
  · obtain ⟨before, hfront, hbytes⟩ := exists_bytes_eq hmem
    refine ⟨(before.splitOn slash).filterMap Step.ofPiece?, .demand, .inr rfl, ?_, ?_⟩
    · have hpieces : p.front.pieces = before.splitOn slash ++ [[]] := by
        rw [hfront, pieces, List.splitOn_append_cons_self, List.splitOn_nil]
      have hslash : p.front.endsInSlash = true := by
        rw [hfront, endsInSlash]
        simp
      rw [steps, named, hpieces, hslash, List.filterMap_append]
      simp [Step.ofPiece?]
    · rw [named, pieces_eq hbytes, List.filterMap_append]
      cases h : Step.ofPiece? p.lastPiece <;> simp [h]
  · refine ⟨[], .stay, .inl rfl, by rw [front, if_neg hmem]; rfl, ?_⟩
    rw [named, pieces, List.splitOn_eq_singleton hmem, lastPiece_of_notMem hmem]
    cases h : Step.ofPiece? p.bytes <;> simp [h]

/-- **If a path ends in a name, the front takes the steps before it.** -/
theorem front_of_name (hne : p.bytes ≠ []) (hslash : p.endsInSlash = false)
    (hname : p.named.getLast? = some (.into name)) :
    Step.ofPiece? p.lastPiece = some (.into name) ∧
      ∃ last, last.Stays ∧ p.front.steps = p.named.dropLast ++ [last] := by
  obtain ⟨before, last, hlast, hfront, hnamed⟩ := p.exists_named_eq
  obtain ⟨step, hstep⟩ := Step.exists_ofPiece? (lastPiece_ne_nil hne hslash)
  rw [hstep, Option.toList_some] at hnamed
  rw [hnamed, List.getLast?_concat, Option.some.injEq] at hname
  refine ⟨by rw [hstep, hname], last, hlast, ?_⟩
  rw [hfront, hnamed, List.dropLast_concat]

/-- A path that ends in a name which an entry may have. -/
structure EndsInName (p : Path) : Prop where
  refusal?_eq_none : p.refusal? = none
  endsInSlash_eq_false : p.endsInSlash = false
  getLast?_named : p.named.getLast? = some (.into p.lastPiece)
  length_le : p.lastPiece.length ≤ nameLimit

theorem EndsInName.front (h : p.EndsInName) :
    Step.ofPiece? p.lastPiece = some (.into p.lastPiece) ∧
      ∃ last, last.Stays ∧ p.front.steps = p.named.dropLast ++ [last] :=
  front_of_name (refusal?_eq_none_iff.1 h.refusal?_eq_none).2.1 h.endsInSlash_eq_false h.getLast?_named

/-! ## The directory by its spelling -/

theorem reverse_dropBlank (l : List (List UInt8)) :
    (dropBlank l.reverse).reverse = l.rdropWhile (IsBlank ·) := rfl

/-- Pieces that do not matter at the end are steps that stay. -/
theorem exists_filterMap_eq_replicate : ∀ {l : List (List UInt8)}, (∀ piece ∈ l, IsBlank piece) →
    ∃ n, l.filterMap Step.ofPiece? = List.replicate n .stay
  | [], _ => ⟨0, rfl⟩
  | piece :: l, h => by
    rw [List.forall_mem_cons] at h
    obtain ⟨n, hn⟩ := exists_filterMap_eq_replicate h.2
    rcases h.1 with rfl | rfl
    · exact ⟨n, by simpa [Step.ofPiece?] using hn⟩
    · exact ⟨n + 1, by simpa [Step.ofPiece?, List.replicate_succ] using hn⟩

/-- Without a slash the directory is the working directory. -/
theorem directory_of_notMem (h : slash ∉ p.bytes) : p.directory = ⟨[dot]⟩ := by
  rw [directory, pieces, List.splitOn_eq_singleton h]
  rfl

section Pieces

variable {start last : List UInt8} {middle : List (List UInt8)}
  (hpieces : p.pieces = start :: (middle ++ [last])) (hlast : ¬ IsBlank last)

include hpieces hlast

/-- Of the pieces before a name those are kept that matter. -/
theorem directory_of_pieces_eq :
    p.directory = if start :: middle.rdropWhile (IsBlank ·) = [[]] then ⟨[slash]⟩
      else ⟨[slash].intercalate (start :: middle.rdropWhile (IsBlank ·))⟩ := by
  have hdrop : dropBlank (middle ++ [last]).reverse = last :: middle.reverse := by
    rw [List.reverse_append, List.reverse_singleton, List.singleton_append]
    exact List.dropWhile_cons_of_neg fun h => hlast (of_decide_eq_true h)
  rw [directory, hpieces]
  simp only [hdrop, reverse_dropBlank]
  split
  · rename_i hkept
    rw [if_pos hkept]
  · rename_i hkept
    rw [if_neg hkept]

theorem named_directory :
    p.directory.named = (start :: middle.rdropWhile (IsBlank ·)).filterMap Step.ofPiece? ∧
      (p.directory.isAbsolute ↔ start = []) := by
  rw [directory_of_pieces_eq hpieces hlast]
  split
  · rename_i hkept
    rw [hkept]
    exact ⟨rfl, by simp [(List.cons_eq_cons.1 hkept).1, isAbsolute]⟩
  · rename_i hkept
    have hslash : ∀ piece ∈ start :: middle.rdropWhile (IsBlank ·), slash ∉ piece := by
      intro piece h
      refine notMem_of_mem_splitOn (l := p.bytes) ?_
      rw [← pieces, hpieces, ← List.cons_append]
      refine List.mem_append_left _ (List.mem_cons.2 ((List.mem_cons.1 h).imp_right ?_))
      exact fun h => List.IsPrefix.mem h <| List.rdropWhile_prefix _ _
    have hkeptPieces := List.splitOn_intercalate slash hslash (List.cons_ne_nil _ _)
    refine ⟨by rw [named, pieces, hkeptPieces], ?_⟩
    refine (isAbsolute_iff hkeptPieces).trans ?_
    exact ⟨And.left, fun h => ⟨h, fun hrest => hkept (by rw [h, hrest])⟩⟩

/-- **The directory takes the steps before a name**, but for some that stay. -/
theorem exists_dropLast_named_eq :
    ∃ n, p.named.dropLast = p.directory.named ++ List.replicate n .stay := by
  obtain ⟨step, hstep⟩ := Step.exists_ofPiece? fun h => hlast (.inl h)
  have hblank : ∀ piece ∈ middle.rtakeWhile (IsBlank ·), IsBlank piece := fun _ h =>
    of_decide_eq_true (List.mem_rtakeWhile_imp (p := (IsBlank ·)) h)
  obtain ⟨n, hn⟩ := exists_filterMap_eq_replicate hblank
  refine ⟨n, ?_⟩
  calc p.named.dropLast
      = (start :: middle).filterMap Step.ofPiece? := by
        rw [named, hpieces, ← List.cons_append, List.filterMap_append,
          List.filterMap_cons_some hstep, List.filterMap_nil, List.dropLast_concat]
    _ = (start :: middle.rdropWhile (IsBlank ·) ++ middle.rtakeWhile (IsBlank ·)).filterMap
          Step.ofPiece? := by
        rw [List.cons_append, List.rdropWhile_append_rtakeWhile]
    _ = p.directory.named ++ List.replicate n .stay := by
        rw [List.filterMap_append, hn, (named_directory hpieces hlast).1]

end Pieces

end Path

namespace FileSystem

variable {fs : FileSystem} {p : Path} {d l : Location} {s : List Step}

/-- Where a path stays in a directory, it does not matter how often. -/
theorem resolve_append_replicate_stay (n links : Nat) :
    fs.resolve l (s ++ List.replicate n .stay ++ [.stay]) links = fs.resolve l (s ++ [.stay]) links := by
  have stays (d : Location) (n : Nat) :
      fs.advance d (List.replicate n .stay ++ [.stay]) = fs.advance d [.stay] := by
    induction n with
    | zero => rfl
    | succ n ih =>
      rw [List.replicate_succ, List.cons_append]
      cases hd : fs.barrier? d .stay with
      | some e => rw [advance_cons_of_barrier hd, advance_cons_of_barrier hd]
      | none =>
        rw [← ih]
        simp only [advance, hd]
  rw [List.append_assoc]
  obtain ⟨e, he⟩ | ⟨d, k, hk⟩ := @resolve_append fs l s links
  · rw [he, he]
  · rw [hk, hk, resolve_congr (stays d n)]

/-- **The directory of a path by its spelling is the one in which its last name is looked up.** -/
theorem walk_directory (h : p.EndsInName) :
    fs.walk p.directory (p.directory.named ++ [.stay]) = fs.walk p (p.named.dropLast ++ [.stay]) := by
  obtain ⟨hpiece, last, -, hfront⟩ := h.front
  by_cases hmem : slash ∈ p.bytes
  · obtain ⟨before, -, hbytes⟩ := Path.exists_bytes_eq hmem
    obtain ⟨start, middle, hbefore⟩ := List.exists_cons_of_ne_nil (List.splitOn_ne_nil slash before)
    have hpieces : p.pieces = start :: (middle ++ [p.lastPiece]) := by
      rw [Path.pieces_eq hbytes, hbefore, List.cons_append]
    have hblank := (Step.eq_of_ofPiece? hpiece).2
    obtain ⟨n, hn⟩ := Path.exists_dropLast_named_eq hpieces hblank
    have habsolute : p.directory.isAbsolute = p.isAbsolute := by
      rw [Bool.eq_iff_iff, (Path.named_directory hpieces hblank).2, Path.isAbsolute_iff hpieces]
      simp
    rw [walk, walk, startOf, startOf, habsolute, hn, resolve_append_replicate_stay]
  · have hdropLast : p.named.dropLast = [] := by
      rw [Path.front, if_neg hmem] at hfront
      have hdot : [] ++ [Step.stay] = p.named.dropLast ++ [last] := hfront
      exact (List.append_inj_left' hdot rfl).symm
    have habsolute : p.isAbsolute = false := by
      rw [← p.isAbsolute_front, Path.front, if_neg hmem]
      rfl
    rw [Path.directory_of_notMem hmem, hdropLast, walk, walk, startOf, startOf, habsolute]
    exact resolve_append_replicate_stay (s := []) 1 _

/-- **The last name of a path is looked up in the directory to which its front leads**, if its owner may
search that. -/
theorem walk_dropLast_named_iff (h : p.EndsInName) :
    fs.walk p (p.named.dropLast ++ [.stay]) = .ok d ↔ fs.find p.front = .ok d ∧ fs.isOpen d := by
  obtain ⟨-, last, hlast, hfront⟩ := h.front
  simp only [find, Path.refusal?_front h.refusal?_eq_none, hfront, walk, startOf, Path.isAbsolute_front]
  rw [resolve_concat_eq_ok_iff (.inl rfl), resolve_concat_eq_ok_iff hlast,
    barrier?_eq_none_iff (by simp : Step.stay ≠ .demand)]
  constructor
  · exact fun ⟨hwalk, hopen⟩ => ⟨⟨hwalk, barrier?_of_isOpen hopen last⟩, hopen⟩
  · exact fun ⟨⟨hwalk, _⟩, hopen⟩ => ⟨hwalk, hopen⟩

end FileSystem

end ImageDimensions
