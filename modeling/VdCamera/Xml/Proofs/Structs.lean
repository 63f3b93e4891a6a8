import VdCamera.Xml.Structs

/-!
# Reading back what was written

What the creating functions build is read back, apart from a pair of days, whose node is not
returned, and a pair of times, whose begin is not written. The reading of a polygon stays inside its
arrays as far as the attributes of the file say so.
-/

namespace VdCamera.Xml

open Misc

variable {N : Nat} {F : Type} (texts : FloatText F)

/-- A value of one of the structures. -/
inductive VDValue (N : Nat) (F : Type)
  | date (v : VDDate)
  | daysegment (v : VDDaysegment)
  | timeRestriction (v : VDTimeRestriction)
  | timesegment (v : VDTimesegment)
  | rect (v : VDRect)
  | point (v : VDPoint)
  | polygon (v : VDPolygon N F)

/-- A node is returned for every name, and reading it into any structure gives `v`. -/
def IsReadBack {σ : Type} (create : σ → String → Option XmlNode) (parse : σ → XmlNode → σ)
    (v : σ) : Prop :=
  ∀ old nodeName, ∃ node, create v nodeName = some node ∧ parse old node = v

/-- Every integer field of the value is read back from the node that is created for it. -/
def VDValue.ReadBack : VDValue N F → Prop
  | .date v => IsReadBack createVDDate parseVDDate v
  | .daysegment v => IsReadBack createVDDaysegment parseVDDaysegment v
  | .timeRestriction v => IsReadBack createVDTimeRestriction parseVDTimeRestriction v
  | .timesegment v => IsReadBack createVDTimesegment parseVDTimesegment v
  | .rect v => IsReadBack createVDRect parseVDRect v
  | .point v => ∀ old nodeName, ∃ node, createVDPoint v nodeName = some node
      ∧ parseVDPoint (some old) node = .ok (some v)
  | .polygon v => ∀ old nodeName, ∃ node read, createVDPolygon texts v nodeName = some node
      ∧ parseVDPolygon texts old node = .ok read
      ∧ read.num = v.num ∧ read.rect = v.rect ∧ read.point = v.point

/-- The values that the two files keep. -/
def VDValue.Kept : VDValue N F → Prop
  | .daysegment _ => False
  | .timesegment v => v.begin = v.end_
  | _ => True

/-- An element of an array has an attribute, and where that is the id and the element has one of
the fields, the id is the number of an element. -/
def Placed (N : Nat) (names : List String) (cur : XmlNode) : Prop :=
  ∃ attr rest, cur.attrs = attr :: rest ∧ (attr.1 = "id" →
    (∃ c ∈ cur.children, c.name ∈ names) → 1 ≤ (atoi attr.2).toInt ∧ (atoi attr.2).toInt ≤ N)

def Fits (N : Nat) (cur : XmlNode) : Prop :=
  (cur.name = "point" → Placed N ["x", "y"] cur) ∧ (cur.name = "line" → Placed N ["a", "b"] cur)

/-- The reading ends with a point that has an id and no children. -/
def Stops (cur : XmlNode) : Prop :=
  cur.name = "point" ∧ cur.children = [] ∧ ∃ value rest, cur.attrs = ("id", value) :: rest

/-- Every point and every line fits that the reading gets to. -/
def AllFit (N : Nat) (cs : List XmlNode) : Prop :=
  ∀ pre cur post, cs = pre ++ cur :: post → (∀ c ∈ pre, ¬ Stops c) → Fits N cur

/-- The reading writes in no place outside the arrays and reads no attribute that is `NULL`. -/
def ReadsInside (polygon : VDPolygon N F) (node : XmlNode) : Prop :=
  parseVDPolygon texts polygon node ≠ .error .outside
    ∧ parseVDPolygon texts polygon node ≠ .error .nullAttr

/-! ## One structure -/

section Fields

variable {σ : Type} {fields : Fields σ} {node : XmlNode}

@[simp]
theorem name_intField (name : String) (v : Int32) : (intField name v).name = name := (rfl)

@[simp]
theorem intOf_intField (set : Int32 → σ → σ) (name : String) (v : Int32) (s : σ) :
    intOf set (intField name v) s = set v s := by
  rw [intOf, intField, XmlNode.content_new_text, atoi_fmtInt]

@[simp]
theorem parseFields_nil (nodeName : String) (s : σ) :
    parseFields fields s (.new nodeName []) = s := (rfl)

theorem parseFields_cons (nodeName : String) (c : XmlNode) (cs : List XmlNode) (s : σ) :
    parseFields fields s (.new nodeName (c :: cs))
      = parseFields fields (match fields.lookup c.name with
        | some read => read c s
        | none => s) (.new nodeName cs) := (rfl)

theorem isReadBack_date (date : VDDate) : IsReadBack createVDDate parseVDDate date := by
  intro old nodeName
  refine ⟨_, rfl, ?_⟩
  simp [parseVDDate, parseFields_cons, List.lookup_cons]

theorem isReadBack_timeRestriction (time : VDTimeRestriction) :
    IsReadBack createVDTimeRestriction parseVDTimeRestriction time := by
  intro old nodeName
  refine ⟨_, rfl, ?_⟩
  simp [parseVDTimeRestriction, parseFields_cons, List.lookup_cons]

theorem isReadBack_rect (rect : VDRect) : IsReadBack createVDRect parseVDRect rect := by
  intro old nodeName
  refine ⟨_, rfl, ?_⟩
  simp [parseVDRect, parseFields_cons, List.lookup_cons]

/-- Both times of what is read are the end. -/
theorem parse_timesegment (timesegment old : VDTimesegment) (nodeName : String) :
    ∃ node, createVDTimesegment timesegment nodeName = some node
      ∧ parseVDTimesegment old node = ⟨timesegment.end_, timesegment.end_⟩ := by
  obtain ⟨first, hfirst, hread⟩ :=
    isReadBack_timeRestriction timesegment.end_ old.begin "begin"
  obtain ⟨second, hsecond, hread'⟩ :=
    isReadBack_timeRestriction timesegment.end_ old.end_ "end"
  refine ⟨.new nodeName [first, second], ?_, ?_⟩
  · rw [createVDTimesegment, hfirst, hsecond]
    rfl
  · cases hfirst
    cases hsecond
    simp [parseVDTimesegment, parseFields_cons, List.lookup_cons, hread, hread']

theorem isReadBack_timesegment (timesegment : VDTimesegment) :
    IsReadBack createVDTimesegment parseVDTimesegment timesegment
      ↔ timesegment.begin = timesegment.end_ := by
  constructor
  · intro h
    obtain ⟨node, hnode, hread⟩ := h timesegment ""
    obtain ⟨node', hnode', hread'⟩ := parse_timesegment timesegment timesegment ""
    rw [hnode] at hnode'
    cases hnode'
    rw [hread] at hread'
    exact congrArg VDTimesegment.begin hread'
  · intro h old nodeName
    obtain ⟨node, hnode, hread⟩ := parse_timesegment timesegment old nodeName
    refine ⟨node, hnode, ?_⟩
    rw [hread, ← h]
    cases timesegment
    cases h
    rfl

/-- Through a pointer to a structure the loop is the one on the structure. -/
theorem parseFieldsAt_some (s : σ) :
    parseFieldsAt fields (some s) node = .ok (some (parseFields fields s node)) := by
  unfold parseFieldsAt parseFields
  induction node.children generalizing s with
  | nil => rfl
  | cons cur cs ih =>
    rw [List.foldlM_cons, List.foldl_cons]
    cases fields.lookup cur.name with
    | none => exact ih s
    | some read => exact ih (read cur s)

/-- Through a pointer past an array the first field that is read is written outside. -/
theorem parseFieldsAt_none :
    parseFieldsAt fields none node
      = if ∃ c ∈ node.children, c.name ∈ fields.map Prod.fst then .error .outside
        else .ok none := by
  unfold parseFieldsAt
  induction node.children with
  | nil => simp [pure, Except.pure]
  | cons cur cs ih =>
    rw [List.foldlM_cons]
    have hmem : cur.name ∈ fields.map Prod.fst ↔ (fields.lookup cur.name).isSome := by
      rw [List.lookup_isSome_iff]
      grind
    cases hl : fields.lookup cur.name with
    | none =>
      rw [hl] at hmem
      have hno : cur.name ∉ fields.map Prod.fst := by simpa using hmem
      show List.foldlM _ none cs = _
      simpa only [List.mem_cons, exists_eq_or_imp, hno, false_or] using ih
    | some read =>
      rw [hl] at hmem
      rw [if_pos ⟨cur, List.mem_cons_self .., hmem.mpr rfl⟩]
      rfl

end Fields

/-- A node of a point, with the attributes that it may have got. -/
theorem parse_point {node : XmlNode} (point old : VDPoint)
    (hchildren : node.children = [intField "x" point.x, intField "y" point.y]) :
    parseVDPoint (some old) node = .ok (some point) := by
  have hfields : parseFields pointFields old node = point := by
    show parseFields pointFields old (.new "" node.children) = point
    rw [hchildren]
    simp [pointFields, parseFields_cons, List.lookup_cons]
  rw [parseVDPoint, hchildren, ← hfields]
  exact parseFieldsAt_some old

/-! ## A polygon -/

section Polygon

variable (polygon p : VDPolygon N F)

/-- The number of an element is read back, and the slot before it is the element's. -/
theorem idOfFirst_withId (hN : N < 2 ^ 31) (nodeName : String) (cs : List XmlNode) (i : Fin N) :
    idOfFirst (withId (.new nodeName cs) i) = .ok (some ((i + 1 : Nat) : Int)) := by
  have hi := i.isLt
  have hread : (atoi (fmtInt ((i + 1 : Nat) : Int))).toInt = (i + 1 : Nat) := by
    rw [atoi, strtol_fmtInt (by omega) (by omega)]
    exact Int32.toInt_ofInt_of_le (by omega) (by omega)
  simp only [idOfFirst, withId, XmlNode.attrs_newProp, XmlNode.getProp, if_true, List.lookup_cons,
    beq_self_eq_true, hread]

@[simp]
theorem slot_val {α : Type} (array : Fin N → α) (i : Fin N) :
    slot array (((i + 1 : Nat) : Int) - 1) = some (array i) := by
  have hi := i.isLt
  have hnat : (((i + 1 : Nat) : Int) - 1).toNat = i := by omega
  rw [slot, dif_pos ⟨by omega, by omega⟩]
  exact congrArg (fun j => some (array j)) (Fin.ext hnat)

theorem setSlot_val {α : Type} (array : Fin N → α) (i : Fin N) (v : α) :
    setSlot array (((i + 1 : Nat) : Int) - 1) (some v) = Function.update array i v := by
  funext j
  by_cases hj : j = i
  · subst hj
    simp [setSlot]
  · have hne : ¬ (j : Int) = ((i + 1 : Nat) : Int) - 1 := by
      intro h
      exact hj (Fin.ext (by omega))
    rw [setSlot, if_neg hne, Function.update_of_ne hj]

/-- The elements of the arrays as they are written. -/
def pointNode (polygon : VDPolygon N F) (i : Fin N) : XmlNode :=
  withId (.new "point"
    [intField "x" (polygon.point i).x, intField "y" (polygon.point i).y]) i

def lineNode (polygon : VDPolygon N F) (i : Fin N) : XmlNode :=
  withId (.new "line" [.new "a" [.text (texts.fmt3 (polygon.line i).a)],
    .new "b" [.text (texts.fmt3 (polygon.line i).b)]]) i

theorem createVDPolygon_eq (nodeName : String) : ∃ rect,
    createVDRect polygon.rect "rect" = some rect
      ∧ createVDPolygon texts polygon nodeName = some (.new nodeName
        (intField "num" polygon.num :: rect ::
          ((List.finRange N).map (pointNode polygon)
            ++ (List.finRange N).map (lineNode texts polygon)))) := by
  refine ⟨_, rfl, ?_⟩
  have hpoints : (List.finRange N).mapM (fun i =>
      (createVDPoint (polygon.point i) "point").map fun child => withId child i)
        = some ((List.finRange N).map (pointNode polygon)) := List.mapM_pure
  have hlines : (List.finRange N).mapM (fun i =>
      (createVDLine texts (polygon.line i) "line").map fun child => withId child i)
        = some ((List.finRange N).map (lineNode texts polygon)) := List.mapM_pure
  rw [createVDPolygon, hpoints, hlines]
  rfl

/-- What a child with each of the names does. -/
theorem step_point {cur : XmlNode} (hname : cur.name = "point") :
    parsePolygonChild texts p cur = (idOfFirst cur).bind fun id =>
      match id with
      | none => .ok p
      | some id => (parseVDPoint (slot p.point (id - 1)) cur).bind fun point =>
        .ok { p with point := setSlot p.point (id - 1) point } := by
  rw [parsePolygonChild, hname]
  rfl

theorem step_line {cur : XmlNode} (hname : cur.name = "line") :
    parsePolygonChild texts p cur = (idOfFirst cur).bind fun id =>
      match id with
      | none => .ok p
      | some id => (parseVDLine texts (slot p.line (id - 1)) cur).bind fun line =>
        .ok { p with line := setSlot p.line (id - 1) line } := by
  rw [parsePolygonChild, hname]
  rfl

theorem step_num {cur : XmlNode} (hname : cur.name = "num") :
    parsePolygonChild texts p cur = .ok { p with num := atoi cur.content } := by
  rw [parsePolygonChild, hname]
  rfl

theorem step_rect {cur : XmlNode} (hname : cur.name = "rect") :
    parsePolygonChild texts p cur = .ok { p with rect := parseVDRect p.rect cur } := by
  rw [parsePolygonChild, hname]
  rfl

theorem step_other {cur : XmlNode} (hpoint : cur.name ≠ "point") (hline : cur.name ≠ "line") :
    ∃ q, parsePolygonChild texts p cur = .ok q := by
  unfold parsePolygonChild
  rw [if_neg hpoint, if_neg hline]
  split
  · exact ⟨_, rfl⟩
  · split
    · exact ⟨_, rfl⟩
    · exact ⟨p, rfl⟩

theorem step_pointNode (hN : N < 2 ^ 31) (i : Fin N) :
    parsePolygonChild texts p (pointNode polygon i)
      = .ok { p with point := Function.update p.point i (polygon.point i) } := by
  rw [step_point texts p rfl, pointNode, idOfFirst_withId hN]
  show (parseVDPoint (slot p.point _) _).bind _ = _
  rw [slot_val, parse_point (polygon.point i) (p.point i) rfl, ← setSlot_val]
  rfl

theorem step_lineNode (hN : N < 2 ^ 31) (i : Fin N) :
    ∃ line, parsePolygonChild texts p (lineNode texts polygon i) = .ok { p with line } := by
  rw [step_line texts p rfl, lineNode, idOfFirst_withId hN]
  show ∃ line, (parseVDLine texts (slot p.line _) _).bind _ = _
  rw [slot_val, parseVDLine, parseFieldsAt_some]
  exact ⟨_, rfl⟩

theorem foldlM_points (hN : N < 2 ^ 31) (is : List (Fin N)) :
    (is.map (pointNode polygon)).foldlM (parsePolygonChild texts) p
      = .ok { p with point := fun j => if is.contains j then polygon.point j else p.point j } := by
  induction is generalizing p with
  | nil => simp [pure, Except.pure]
  | cons i is ih =>
    rw [List.map_cons, List.foldlM_cons, step_pointNode texts polygon p hN]
    show List.foldlM _ _ _ = _
    rw [ih]
    congr 2
    funext j
    by_cases hj : j = i
    · subst hj
      simp
    · simp [hj]

theorem foldlM_lines (hN : N < 2 ^ 31) (is : List (Fin N)) :
    ∃ line, (is.map (lineNode texts polygon)).foldlM (parsePolygonChild texts) p
      = .ok { p with line } := by
  induction is generalizing p with
  | nil => exact ⟨p.line, rfl⟩
  | cons i is ih =>
    obtain ⟨line, hstep⟩ := step_lineNode texts polygon p hN i
    obtain ⟨line', hrest⟩ := ih { p with line }
    refine ⟨line', ?_⟩
    rw [List.map_cons, List.foldlM_cons, hstep]
    exact hrest

theorem readBack_polygon (hN : N < 2 ^ 31) (polygon : VDPolygon N F) :
    (VDValue.polygon polygon).ReadBack texts := by
  intro old nodeName
  obtain ⟨rect, hrect, hcreate⟩ := createVDPolygon_eq texts polygon nodeName
  obtain ⟨rect', hrect', hread⟩ := isReadBack_rect polygon.rect old.rect "rect"
  rw [hrect] at hrect'
  cases hrect'
  have hname : rect.name = "rect" := by
    cases hrect
    rfl
  obtain ⟨line, hlines⟩ := foldlM_lines texts polygon
    ⟨polygon.num, polygon.rect, polygon.point, old.line⟩ hN (List.finRange N)
  have hnum : atoi (intField "num" polygon.num).content = polygon.num := by
    rw [intField, XmlNode.content_new_text, atoi_fmtInt]
  refine ⟨_, ⟨polygon.num, polygon.rect, polygon.point, line⟩, hcreate, ?_, rfl, rfl, rfl⟩
  show List.foldlM (parsePolygonChild texts) old (_ :: rect :: _) = _
  rw [List.foldlM_cons, step_num texts old rfl, hnum]
  show List.foldlM (parsePolygonChild texts) _ (rect :: _) = _
  rw [List.foldlM_cons, step_rect texts _ hname, hread]
  show List.foldlM (parsePolygonChild texts) _ (_ ++ _) = _
  rw [List.foldlM_append, foldlM_points texts polygon _ hN]
  simpa [Bind.bind, Except.bind] using hlines

/-! ## Any file -/

variable {cur : XmlNode} {attr : String × List UInt8} {rest : List (String × List UInt8)}

theorem idOfFirst_nil (h : cur.attrs = []) : idOfFirst cur = .error .nullAttr := by
  rw [idOfFirst, h]

theorem idOfFirst_id (h : cur.attrs = attr :: rest) (hid : attr.1 = "id") :
    idOfFirst cur = .ok (some (atoi attr.2).toInt) := by
  obtain ⟨name, value⟩ := attr
  cases hid
  rw [idOfFirst, h]
  simp only [if_true, XmlNode.getProp_of_first h]

theorem idOfFirst_other (h : cur.attrs = attr :: rest) (hid : attr.1 ≠ "id") :
    idOfFirst cur = .ok none := by
  rw [idOfFirst, h]
  exact if_neg hid

section Slot

variable {σ : Type} (fields : Fields σ) (array : Fin N → σ) {id : Int}

theorem parseFieldsAt_slot
    (h : (∃ c ∈ cur.children, c.name ∈ fields.map Prod.fst) → 1 ≤ id ∧ id ≤ N) :
    ∃ place, parseFieldsAt fields (slot array (id - 1)) cur = .ok place := by
  unfold slot
  split
  · exact ⟨_, parseFieldsAt_some _⟩
  · next hout =>
    rw [parseFieldsAt_none, if_neg]
    · exact ⟨_, rfl⟩
    · intro hc
      have := h hc
      omega

theorem parseFieldsAt_slot_outside (hc : ∃ c ∈ cur.children, c.name ∈ fields.map Prod.fst)
    (hid : ¬ (1 ≤ id ∧ id ≤ N)) :
    parseFieldsAt fields (slot array (id - 1)) cur = .error .outside := by
  unfold slot
  rw [dif_neg (by omega), parseFieldsAt_none, if_pos hc]

end Slot

theorem step_stops (h : Stops cur) : parsePolygonChild texts p cur = .error .nullNode := by
  obtain ⟨hname, hchildren, value, rest, hattrs⟩ := h
  rw [step_point texts p hname, idOfFirst_id hattrs rfl]
  show (parseVDPoint _ cur).bind _ = _
  rw [parseVDPoint, hchildren]
  rfl

/-- A child that fits is read. -/
theorem step_fits (hfits : Fits N cur) (hgoes : ¬ Stops cur) :
    ∃ q, parsePolygonChild texts p cur = .ok q := by
  by_cases hpoint : cur.name = "point"
  · obtain ⟨attr, rest, hattrs, hplaced⟩ := hfits.1 hpoint
    rw [step_point texts p hpoint]
    by_cases hid : attr.1 = "id"
    · obtain ⟨place, hplace⟩ := parseFieldsAt_slot pointFields p.point (hplaced hid)
      have hchildren : cur.children ≠ [] := by
        intro h
        refine hgoes ⟨hpoint, h, attr.2, rest, ?_⟩
        rw [hattrs, ← hid]
      rw [idOfFirst_id hattrs hid]
      show ∃ q, (parseVDPoint _ cur).bind _ = .ok q
      rw [parseVDPoint, if_neg (by simpa using hchildren), hplace]
      exact ⟨_, rfl⟩
    · rw [idOfFirst_other hattrs hid]
      exact ⟨p, rfl⟩
  · by_cases hline : cur.name = "line"
    · obtain ⟨attr, rest, hattrs, hplaced⟩ := hfits.2 hline
      rw [step_line texts p hline]
      by_cases hid : attr.1 = "id"
      · obtain ⟨place, hplace⟩ :=
          parseFieldsAt_slot (lineFields texts) p.line (hplaced hid)
        rw [idOfFirst_id hattrs hid]
        show ∃ q, (parseVDLine texts _ cur).bind _ = .ok q
        rw [parseVDLine, hplace]
        exact ⟨_, rfl⟩
      · rw [idOfFirst_other hattrs hid]
        exact ⟨p, rfl⟩
    · exact step_other texts p hpoint hline

/-- What is not so is an attribute that is not there, or a number that no element has. -/
theorem not_placed {names : List String} (h : ¬ Placed N names cur) :
    cur.attrs = [] ∨ ∃ attr rest, cur.attrs = attr :: rest ∧ attr.1 = "id"
      ∧ (∃ c ∈ cur.children, c.name ∈ names)
      ∧ ¬ (1 ≤ (atoi attr.2).toInt ∧ (atoi attr.2).toInt ≤ N) := by
  cases hattrs : cur.attrs with
  | nil => exact .inl rfl
  | cons attr rest =>
    right
    refine ⟨attr, rest, rfl, ?_⟩
    by_contra hno
    apply h
    refine ⟨attr, rest, hattrs, fun hid hc => ?_⟩
    by_contra hout
    exact hno ⟨hid, hc, hout⟩

theorem step_unfit (hunfit : ¬ Fits N cur) :
    parsePolygonChild texts p cur = .error .outside
      ∨ parsePolygonChild texts p cur = .error .nullAttr := by
  have hcases : (cur.name = "point" ∧ ¬ Placed N ["x", "y"] cur)
      ∨ (cur.name = "line" ∧ ¬ Placed N ["a", "b"] cur) := by
    unfold Fits at hunfit
    tauto
  rcases hcases with ⟨hpoint, hplaced⟩ | ⟨hline, hplaced⟩
  · rw [step_point texts p hpoint]
    rcases not_placed hplaced with hattrs | ⟨attr, rest, hattrs, hid, hc, hout⟩
    · right
      rw [idOfFirst_nil hattrs]
      rfl
    · left
      have hchildren : cur.children ≠ [] := by
        intro h
        rw [h] at hc
        simp at hc
      rw [idOfFirst_id hattrs hid]
      show (parseVDPoint _ cur).bind _ = _
      rw [parseVDPoint, if_neg (by simpa using hchildren),
        parseFieldsAt_slot_outside pointFields p.point hc hout]
      rfl
  · rw [step_line texts p hline]
    rcases not_placed hplaced with hattrs | ⟨attr, rest, hattrs, hid, hc, hout⟩
    · right
      rw [idOfFirst_nil hattrs]
      rfl
    · left
      rw [idOfFirst_id hattrs hid]
      show (parseVDLine texts _ cur).bind _ = _
      rw [parseVDLine, parseFieldsAt_slot_outside (lineFields texts) p.line hc hout]
      rfl

theorem allFit_cons {cs : List XmlNode} :
    AllFit N (cur :: cs) ↔ Fits N cur ∧ (Stops cur ∨ AllFit N cs) := by
  constructor
  · intro h
    refine ⟨h [] cur cs rfl (by simp), ?_⟩
    by_cases hstops : Stops cur
    · exact .inl hstops
    · right
      intro pre c post hcs hpre
      refine h (cur :: pre) c post (by rw [hcs, List.cons_append]) ?_
      simpa [hstops] using hpre
  · rintro ⟨hfits, hrest⟩ pre c post hcs hpre
    cases pre with
    | nil =>
      cases hcs
      exact hfits
    | cons d pre =>
      cases hcs
      rcases hrest with hstops | hrest
      · exact absurd hstops (hpre _ (List.mem_cons_self ..))
      · exact hrest pre c post rfl fun e he => hpre e (List.mem_cons_of_mem _ he)

/-- The loop ends well, or at a node that is not there, if and only if all children fit. -/
theorem foldlM_inside (cs : List XmlNode) :
    (cs.foldlM (parsePolygonChild texts) p ≠ .error .outside
      ∧ cs.foldlM (parsePolygonChild texts) p ≠ .error .nullAttr) ↔ AllFit N cs := by
  induction cs generalizing p with
  | nil =>
    refine iff_of_true ⟨nofun, nofun⟩ ?_
    intro pre cur post hcs
    simp at hcs
  | cons cur cs ih =>
    rw [allFit_cons, List.foldlM_cons]
    by_cases hfits : Fits N cur
    · by_cases hstops : Stops cur
      · rw [step_stops texts p hstops]
        exact iff_of_true ⟨nofun, nofun⟩ ⟨hfits, .inl hstops⟩
      · obtain ⟨q, hq⟩ := step_fits texts p hfits hstops
        rw [hq]
        show (List.foldlM (parsePolygonChild texts) q cs ≠ _ ∧
          List.foldlM (parsePolygonChild texts) q cs ≠ _) ↔ _
        rw [ih q]
        simp [hfits, hstops]
    · refine iff_of_false ?_ fun h => hfits h.1
      rintro ⟨hout, hnull⟩
      rcases step_unfit texts p hfits with h | h
      · rw [h] at hout
        exact hout rfl
      · rw [h] at hnull
        exact hnull rfl

theorem readsInside_iff (node : XmlNode) :
    ReadsInside texts p node ↔ AllFit N node.children := by
  unfold ReadsInside parseVDPolygon
  cases hchildren : node.children with
  | nil =>
    refine iff_of_true ⟨nofun, nofun⟩ ?_
    intro pre cur post hcs
    simp at hcs
  | cons cur cs => exact foldlM_inside texts p (cur :: cs)

end Polygon

/-! ## The main results -/

theorem readBack_iff (hN : N < 2 ^ 31) (v : VDValue N F) : v.ReadBack texts ↔ v.Kept := by
  cases v with
  | date v => exact iff_of_true (isReadBack_date v) trivial
  | daysegment v =>
    refine iff_of_false ?_ id
    intro h
    obtain ⟨node, hnode, _⟩ := h v ""
    cases hnode
  | timeRestriction v => exact iff_of_true (isReadBack_timeRestriction v) trivial
  | timesegment v => exact isReadBack_timesegment v
  | rect v => exact iff_of_true (isReadBack_rect v) trivial
  | point v => exact iff_of_true (fun old _ => ⟨_, rfl, parse_point v old rfl⟩) trivial
  | polygon v => exact iff_of_true (readBack_polygon texts hN v) trivial

/-- A value is read back if and only if it is no pair of days and no pair of different times; a
polygon is read inside its arrays if and only if its points and lines have an attribute, and an id
in the first one is the number of an element. -/
theorem structures_read_back (hN : N < 2 ^ 31) :
    (∀ v : VDValue N F, v.ReadBack texts ↔ v.Kept)
      ∧ ∀ (old : VDPolygon N F) (node : XmlNode),
        ReadsInside texts old node ↔ AllFit N node.children :=
  ⟨readBack_iff texts hN, readsInside_iff texts⟩

/-- Texts of numbers without a fraction. -/
def wholeTexts : FloatText Int where
  fmt3 v := fmtInt v ++ ascii ".000"
  atof := strtol

def zeroPolygon : VDPolygon 8 Int :=
  ⟨0, ⟨0, 0, 0, 0⟩, fun _ => ⟨0, 0⟩, fun _ => ⟨0, 0⟩⟩

/-- The point (100, 200) as the first of an array. -/
def firstPoint : XmlNode := .newProp "id" (ascii "1") (.new "point" [intField "x" 100, intField "y" 200])

theorem fits_firstPoint : Fits 8 firstPoint :=
  ⟨fun _ => ⟨("id", ascii "1"), [], rfl, fun _ _ => by decide⟩, fun h => absurd h (by decide)⟩

/-- A date and a polygon of one point. -/
theorem structures_read_back_date :
    (VDValue.date ⟨2014, 10, 31⟩ : VDValue 8 Int).ReadBack wholeTexts
      ∧ ReadsInside wholeTexts zeroPolygon (.new "polygon" [intField "num" 1, firstPoint]) := by
  have hnum : Fits 8 (intField "num" 1) :=
    ⟨fun h => absurd h (by decide), fun h => absurd h (by decide)⟩
  have hnil : AllFit 8 [] := fun pre cur post hcs => absurd hcs (by simp)
  have h := structures_read_back wholeTexts (show 8 < 2 ^ 31 by decide)
  refine ⟨(h.1 _).mpr trivial, (h.2 _ _).mpr ?_⟩
  exact allFit_cons.mpr ⟨hnum, .inr (allFit_cons.mpr ⟨fits_firstPoint, .inr hnil⟩)⟩

/-- The time from eight to half past five, and a point that has no attribute. -/
theorem structures_not_read_back :
    ¬ (VDValue.timesegment ⟨⟨8, 0, 0⟩, ⟨17, 30, 0⟩⟩ : VDValue 8 Int).ReadBack wholeTexts
      ∧ ¬ ReadsInside wholeTexts zeroPolygon
        (.new "polygon" [.new "point" [intField "x" 100, intField "y" 200]]) := by
  constructor
  · intro h
    have hsame := (isReadBack_timesegment _).mp h
    exact absurd hsame (by decide)
  · rw [readsInside_iff]
    intro h
    obtain ⟨_, _, hattrs, _⟩ := (h [] _ [] rfl (by simp)).1 rfl
    cases hattrs

end VdCamera.Xml
