import ImageDimensions.Proofs.Concatenation
import ImageDimensions.Template

/-!
# Proofs/Template/Signature — the lines of a method determine its signature

A name may hold anything, also what separates and announces names.  So neither the line that opens a
method nor the line of its call determines the parameters; together they do (`parameters_of_lines`), and
they show nothing more than the scalar type of what is given out (`method_eq_method_iff`).

Both are one text of names and separators, and the opening line has more: a lead before every name.  If
two lists of parameters cut the text differently, one of them has a name that reaches beyond a separator
of the other (`overhang_eq_nil` says that none does).  From that separator on one opening line goes on
with a lead, the other without, and this shows at the next comma: no lead has one.
-/

namespace ImageDimensions.Template

/-- The characters between two names. -/
def separator : List Char := ", ".toList

theorem separator_eq : separator = [',', ' '] := rfl

/-- What announces a name: its type, and whether it is given out. -/
def lead (s : Scalar) : Direction → List Char
  | .input => "uint ".toList
  | .output => ("out " ++ s.keyword ++ " ").toList

theorem toList_declaration (s : Scalar) (p : Parameter) :
    (declaration s p).toList = lead s p.direction ++ p.name.toList := by
  cases h : p.direction <;> simp [declaration, lead, h]

theorem lead_ne_nil (s : Scalar) (d : Direction) : lead s d ≠ [] := by
  cases s <;> cases d <;> decide

theorem comma_notMem_lead (s : Scalar) (d : Direction) : ',' ∉ lead s d := by
  cases s <;> cases d <;> decide

/-- A lead is recognised by its beginning, and shows the scalar type if a value is given out. -/
theorem lead_append_inj {s t : Scalar} {d d' : Direction} {x y : List Char}
    (h : lead s d ++ x = lead t d' ++ y) : d = d' ∧ x = y ∧ (d = .output → s = t) := by
  cases d <;> cases d' <;> cases s <;> cases t <;> simp_all [lead, Scalar.keyword]

/-- The names of parameters, each after a separator. -/
def plainTail (ps : List Parameter) : List Char :=
  ps.flatMap fun p => separator ++ p.name.toList

/-- The declarations of parameters, each after a separator. -/
def ledTail (s : Scalar) (ps : List Parameter) : List Char :=
  ps.flatMap fun p => separator ++ (lead s p.direction ++ p.name.toList)

variable {s t : Scalar} {ps qs : List Parameter}

/-- Up to the first comma leads behind it make no difference. -/
theorem takeWhile_append_ledTail (a : List Char) (s : Scalar) (ps : List Parameter) :
    (a ++ ledTail s ps).takeWhile (· ≠ ',') = (a ++ plainTail ps).takeWhile (· ≠ ',') := by
  have hled : (ledTail s ps).takeWhile (· ≠ ',') = [] := by cases ps <;> rfl
  have hplain : (plainTail ps).takeWhile (· ≠ ',') = [] := by cases ps <;> rfl
  rw [List.takeWhile_append, List.takeWhile_append, hled, hplain]

/-- **No name reaches beyond a separator**: where one list of parameters goes on with a separator, so does
the other. -/
theorem overhang_eq_nil {c : List Char} (hplain : plainTail ps = c ++ plainTail qs)
    (hled : ledTail s ps = c ++ ledTail t qs) : c = [] := by
  rcases c with _ | ⟨x, _ | ⟨y, c⟩⟩
  · rfl
  · rcases ps with _ | ⟨p, ps⟩ <;> rcases qs with _ | ⟨q, qs⟩ <;>
      simp [plainTail, separator_eq] at hplain
  · rcases ps with _ | ⟨p, ps⟩
    · simp [plainTail] at hplain
    have hplain' : p.name.toList ++ plainTail ps = c ++ plainTail qs := by
      simp only [plainTail, separator_eq, List.flatMap_cons, List.cons_append, List.nil_append,
        List.cons_eq_cons] at hplain
      exact hplain.2.2
    have hled' : lead s p.direction ++ (p.name.toList ++ ledTail s ps) = c ++ ledTail t qs := by
      simp only [ledTail, separator_eq, List.flatMap_cons, List.cons_append, List.nil_append,
        List.append_assoc, List.cons_eq_cons] at hled
      exact hled.2.2
    have hlead : ∀ a ∈ lead s p.direction, decide (a ≠ ',') = true := fun a ha =>
      decide_eq_true fun he => comma_notMem_lead s p.direction (he ▸ ha)
    have hcomma : lead s p.direction ++ (p.name.toList ++ ledTail s ps).takeWhile (· ≠ ',')
        = (p.name.toList ++ ledTail s ps).takeWhile (· ≠ ',') := by
      rw [← List.takeWhile_append_of_pos hlead, hled', takeWhile_append_ledTail, ← hplain',
        takeWhile_append_ledTail]
    exact absurd (List.append_left_eq_self.1 hcomma) (lead_ne_nil s p.direction)

/-- The same text of names, cut by two lists of parameters: the first names agree. -/
theorem name_append_inj {a b : List Char} (hplain : a ++ plainTail ps = b ++ plainTail qs)
    (hled : a ++ ledTail s ps = b ++ ledTail t qs) :
    a = b ∧ plainTail ps = plainTail qs ∧ ledTail s ps = ledTail t qs := by
  have hab : a = b := by
    rcases List.append_eq_append_iff.1 hplain with ⟨c, rfl, hc⟩ | ⟨c, rfl, hc⟩
    · rw [List.append_assoc, List.append_cancel_left_eq] at hled
      rw [overhang_eq_nil hc hled, List.append_nil]
    · rw [List.append_assoc, List.append_cancel_left_eq] at hled
      rw [overhang_eq_nil hc hled.symm, List.append_nil]
  subst hab
  exact ⟨rfl, List.append_cancel_left hplain, List.append_cancel_left hled⟩

/-- Names and declarations together determine the parameters, and the scalar type if a value is given
out. -/
theorem parameters_of_tails : ∀ {ps qs : List Parameter}, plainTail ps = plainTail qs →
    ledTail s ps = ledTail t qs → ps = qs ∧ ∀ p ∈ ps, p.direction = .output → s = t
  | [], [], _, _ => by simp
  | [], _ :: _, h, _ => by simp [plainTail, separator_eq] at h
  | _ :: _, [], h, _ => by simp [plainTail, separator_eq] at h
  | p :: ps, q :: qs, hplain, hled => by
    simp only [plainTail, ledTail, List.flatMap_cons, List.append_assoc,
      List.append_cancel_left_eq] at hplain hled
    obtain ⟨hdirection, hled, hscalar⟩ := lead_append_inj hled
    obtain ⟨hname, hplain, hled⟩ := name_append_inj hplain hled
    obtain ⟨rfl, hscalars⟩ := parameters_of_tails hplain hled
    have hpq : p = q := by
      cases p
      cases q
      simp_all [String.toList_inj]
    exact ⟨by rw [hpq], List.forall_mem_cons.2 ⟨hscalar, hscalars⟩⟩

/-! ## The lines -/

/-- Joined texts, with a separator in front, are the texts with a separator before each. -/
theorem separator_append_joined {ss : List String} (h : ss ≠ []) :
    separator ++ (", ".intercalate ss).toList = ss.flatMap fun text => separator ++ text.toList := by
  rw [String.toList_intercalate, separator, append_intercalate (by simpa using h), List.flatMap_map]

theorem toList_names (h : ps ≠ []) :
    separator ++ (", ".intercalate (ps.map Parameter.name)).toList = plainTail ps := by
  rw [separator_append_joined (by simpa using h), List.flatMap_map, plainTail]

theorem toList_declarations (s : Scalar) (h : ps ≠ []) :
    separator ++ (", ".intercalate (ps.map (declaration s))).toList = ledTail s ps := by
  rw [separator_append_joined (by simpa using h), List.flatMap_map, ledTail]
  simp only [toList_declaration]

theorem declarations_ne_empty (s : Scalar) (h : ps ≠ []) :
    ", ".intercalate (ps.map (declaration s)) ≠ "" := by
  intro he
  obtain ⟨p, ps, rfl⟩ := List.exists_cons_of_ne_nil h
  have htail := toList_declarations s h
  rw [he] at htail
  simp [ledTail, lead_ne_nil] at htail

/-- **The line that opens a method and the line of its call determine the parameters**, and the scalar type
if a value is given out. -/
theorem parameters_of_lines {o o' : Overload} (hopen : methodLine s o = methodLine t o')
    (hcall : callLine o = callLine o') :
    o.parameters = o'.parameters ∧ ∀ p ∈ o.parameters, p.direction = .output → s = t := by
  have hdeclared : ", ".intercalate (o.parameters.map (declaration s))
      = ", ".intercalate (o'.parameters.map (declaration t)) :=
    (String.append_right_inj _).1 ((String.append_left_inj _).1 hopen)
  have hnames : ", ".intercalate (o.parameters.map Parameter.name)
      = ", ".intercalate (o'.parameters.map Parameter.name) :=
    (String.append_right_inj _).1 ((String.append_left_inj _).1 hcall)
  rcases eq_or_ne o.parameters [] with ho | ho <;> rcases eq_or_ne o'.parameters [] with ho' | ho'
  · simp [ho, ho']
  · rw [ho] at hdeclared
    exact absurd hdeclared.symm (declarations_ne_empty t ho')
  · rw [ho'] at hdeclared
    exact absurd hdeclared (declarations_ne_empty s ho)
  · refine parameters_of_tails ?_ ?_
    · rw [← toList_names ho, ← toList_names ho', hnames]
    · rw [← toList_declarations s ho, ← toList_declarations t ho', hdeclared]

/-- Where nothing is given out, the scalar type leaves no trace. -/
theorem declaration_congr {p : Parameter} (h : s = t ∨ p.direction ≠ .output) :
    declaration s p = declaration t p := by
  rcases h with rfl | h
  · rfl
  · cases hd : p.direction
    · simp [declaration, hd]
    · exact absurd hd h

/-- **The lines of a method determine its signature**, whatever the names in it are: methods have the same
lines only if they have the same parameters, and the same scalar type unless they give out nothing. -/
theorem method_eq_method_iff (s t : Scalar) (o o' : Overload) : method s o = method t o' ↔
    o.parameters = o'.parameters ∧ (s = t ∨ ∀ p ∈ o.parameters, p.direction ≠ .output) := by
  constructor
  · intro h
    unfold method at h
    simp only [List.cons_eq_cons, and_true, true_and] at h
    obtain ⟨hparameters, hscalar⟩ := parameters_of_lines h.1 h.2
    refine ⟨hparameters, ?_⟩
    by_cases hst : s = t
    · exact .inl hst
    · exact .inr fun p hp hd => hst (hscalar p hp hd)
  · rintro ⟨hparameters, hscalar⟩
    have hdeclarations : o.parameters.map (declaration s) = o'.parameters.map (declaration t) := by
      rw [← hparameters]
      exact List.map_congr_left fun p hp => declaration_congr (hscalar.imp_right fun h => h p hp)
    have hopen : methodLine s o = methodLine t o' := by
      unfold methodLine
      rw [hdeclarations]
    have hcall : callLine o = callLine o' := by
      unfold callLine Overload.argumentNames
      rw [hparameters]
    unfold method
    rw [hopen, hcall]

/-- The line that opens a method does not tell a name that imitates a declaration from two names. -/
example : methodLine .float ⟨.dimensions, [.output "a", .output "b"]⟩
    = methodLine .float ⟨.dimensions, [.output "a, out float b"]⟩ := by decide

end ImageDimensions.Template
