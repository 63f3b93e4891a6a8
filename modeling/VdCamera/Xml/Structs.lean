import VdCamera.Misc.Xml

/-!
# Configuration structures in XML

`xmlCreater.c` builds an element for a structure, `xmlParser.c` reads a structure from an element.
The header with the structures is not in the repository: its fields are those that the two files
name, an `int` where they are printed with `%d`, and `N` is its `MAX_POINT_POLYGON`. What a line
holds is printed with `%.3f`; its type and texts are parameters.
-/

namespace VdCamera.Xml

open Misc

structure VDDate where
  year : Int32
  month : Int32
  day : Int32
deriving DecidableEq

structure VDDaysegment where
  begin : VDDate
  end_ : VDDate
deriving DecidableEq

structure VDTimeRestriction where
  hour : Int32
  minute : Int32
  second : Int32
deriving DecidableEq

structure VDTimesegment where
  begin : VDTimeRestriction
  end_ : VDTimeRestriction
deriving DecidableEq

structure VDRect where
  top : Int32
  bottom : Int32
  left : Int32
  right : Int32
deriving DecidableEq

structure VDPoint where
  x : Int32
  y : Int32
deriving DecidableEq

structure VDLine (F : Type) where
  a : F
  b : F

structure VDPolygon (N : Nat) (F : Type) where
  num : Int32
  rect : VDRect
  point : Fin N → VDPoint
  line : Fin N → VDLine F

/-- The text of a floating point number with `%.3f`, and `atof`. -/
structure FloatText (F : Type) where
  fmt3 : F → List UInt8
  atof : List UInt8 → F

/-- What ends a reading. -/
inductive Fault
  /-- A node that is `NULL` is read. -/
  | nullNode
  /-- An attribute that is `NULL` is read. -/
  | nullAttr
  /-- A field of an element outside an array is written. -/
  | outside
deriving DecidableEq

section Create

/-- The element of an integer field. -/
def intField (name : String) (value : Int32) : XmlNode := .new name [.text (fmtInt value.toInt)]

def createVDDate (date : VDDate) (nodeName : String) : Option XmlNode :=
  some (.new nodeName
    [intField "year" date.year, intField "month" date.month, intField "day" date.day])

/-- The element with the two dates is built, and 0 is returned. -/
def createVDDaysegment (_daysegment : VDDaysegment) (_nodeName : String) : Option XmlNode := none

def createVDTimeRestriction (time : VDTimeRestriction) (nodeName : String) : Option XmlNode :=
  some (.new nodeName
    [intField "hour" time.hour, intField "minute" time.minute, intField "second" time.second])

/-- Both elements are built from the end. -/
def createVDTimesegment (timesegment : VDTimesegment) (nodeName : String) : Option XmlNode := do
  let begin ← createVDTimeRestriction timesegment.end_ "begin"
  let end_ ← createVDTimeRestriction timesegment.end_ "end"
  return .new nodeName [begin, end_]

def createVDRect (rect : VDRect) (nodeName : String) : Option XmlNode :=
  some (.new nodeName
    [intField "top" rect.top, intField "bottom" rect.bottom, intField "left" rect.left,
      intField "right" rect.right])

def createVDPoint (point : VDPoint) (nodeName : String) : Option XmlNode :=
  some (.new nodeName [intField "x" point.x, intField "y" point.y])

variable {N : Nat} {F : Type} (texts : FloatText F)

def createVDLine (line : VDLine F) (nodeName : String) : Option XmlNode :=
  some (.new nodeName
    [.new "a" [.text (texts.fmt3 line.a)], .new "b" [.text (texts.fmt3 line.b)]])

/-- An element of an array with its number, from 1, as its only attribute. -/
def withId (child : XmlNode) (i : Fin N) : XmlNode := child.newProp "id" (fmtInt (i + 1 : Nat))

def createVDPolygon (polygon : VDPolygon N F) (nodeName : String) : Option XmlNode := do
  let rect ← createVDRect polygon.rect "rect"
  let points ← (List.finRange N).mapM fun i =>
    (createVDPoint (polygon.point i) "point").map fun child => withId child i
  let lines ← (List.finRange N).mapM fun i =>
    (createVDLine texts (polygon.line i) "line").map fun child => withId child i
  return .new nodeName (intField "num" polygon.num :: rect :: (points ++ lines))

end Create

section Parse

/-- The fields of a structure: the name of the child that holds one, and how it is read. -/
abbrev Fields (σ : Type) := List (String × (XmlNode → σ → σ))

/-- An integer field, read with `atoi` from all text of the child. -/
def intOf {σ : Type} (set : Int32 → σ → σ) (cur : XmlNode) : σ → σ := set (atoi cur.content)

/-- The loop over the children of a node: those with the name of a field are read into it. -/
def parseFields {σ : Type} (fields : Fields σ) (s : σ) (node : XmlNode) : σ :=
  node.children.foldl (fun s cur =>
    match fields.lookup cur.name with
    | some read => read cur s
    | none => s) s

def parseVDDate : VDDate → XmlNode → VDDate :=
  parseFields [("year", intOf fun v date => { date with year := v }),
    ("month", intOf fun v date => { date with month := v }),
    ("day", intOf fun v date => { date with day := v })]

def parseVDDaysegment : VDDaysegment → XmlNode → VDDaysegment :=
  parseFields [("begin", fun cur seg => { seg with begin := parseVDDate seg.begin cur }),
    ("end", fun cur seg => { seg with end_ := parseVDDate seg.end_ cur })]

def parseVDTimeRestriction : VDTimeRestriction → XmlNode → VDTimeRestriction :=
  parseFields [("hour", intOf fun v time => { time with hour := v }),
    ("minute", intOf fun v time => { time with minute := v }),
    ("second", intOf fun v time => { time with second := v })]

def parseVDTimesegment : VDTimesegment → XmlNode → VDTimesegment :=
  parseFields
    [("begin", fun cur seg => { seg with begin := parseVDTimeRestriction seg.begin cur }),
    ("end", fun cur seg => { seg with end_ := parseVDTimeRestriction seg.end_ cur })]

def parseVDRect : VDRect → XmlNode → VDRect :=
  parseFields [("top", intOf fun v rect => { rect with top := v }),
    ("bottom", intOf fun v rect => { rect with bottom := v }),
    ("left", intOf fun v rect => { rect with left := v }),
    ("right", intOf fun v rect => { rect with right := v })]

/-- A field is written through a pointer, which points at a structure of an array or at none. -/
def write {σ : Type} (f : σ → σ) : Option σ → Except Fault (Option σ)
  | some s => .ok (some (f s))
  | none => .error .outside

/-- `parseFields` through such a pointer. -/
def parseFieldsAt {σ : Type} (fields : Fields σ) (place : Option σ) (node : XmlNode) :
    Except Fault (Option σ) :=
  node.children.foldlM (fun place cur =>
    match fields.lookup cur.name with
    | some read => write (read cur) place
    | none => .ok place) place

def pointFields : Fields VDPoint :=
  [("x", intOf fun v point => { point with x := v }),
    ("y", intOf fun v point => { point with y := v })]

/-- The name of the first child is printed before the loop looks whether there is one. -/
def parseVDPoint (point : Option VDPoint) (node : XmlNode) : Except Fault (Option VDPoint) :=
  if node.children.isEmpty then .error .nullNode else parseFieldsAt pointFields point node

variable {N : Nat} {F : Type} (texts : FloatText F)

def lineFields : Fields (VDLine F) :=
  [("a", fun cur line => { line with a := texts.atof cur.content }),
    ("b", fun cur line => { line with b := texts.atof cur.content })]

def parseVDLine : Option (VDLine F) → XmlNode → Except Fault (Option (VDLine F)) :=
  parseFieldsAt (lineFields texts)

/-- What `&array[i]` points at. -/
def slot {α : Type} (array : Fin N → α) (i : Int) : Option α :=
  if h : 0 ≤ i ∧ i.toNat < N then some (array ⟨i.toNat, h.2⟩) else none

def setSlot {α : Type} (array : Fin N → α) (i : Int) (v : Option α) : Fin N → α :=
  fun j => if (j : Int) = i then v.getD (array j) else array j

/-- The number in the attribute `id`, where that is the first attribute. -/
def idOfFirst (node : XmlNode) : Except Fault (Option Int) :=
  match node.attrs with
  | [] => .error .nullAttr
  | attr :: _ =>
    if attr.1 = "id" then
      match node.getProp "id" with
      | none => .error .nullAttr
      | some text => .ok (some (atoi text).toInt)
    else .ok none

/-- One turn of the loop of `parse_VD_polygon`. -/
def parsePolygonChild (polygon : VDPolygon N F) (cur : XmlNode) :
    Except Fault (VDPolygon N F) := do
  if cur.name = "num" then
    return { polygon with num := atoi cur.content }
  else if cur.name = "rect" then
    return { polygon with rect := parseVDRect polygon.rect cur }
  else if cur.name = "point" then
    match ← idOfFirst cur with
    | none => return polygon
    | some id =>
      let point ← parseVDPoint (slot polygon.point (id - 1)) cur
      return { polygon with point := setSlot polygon.point (id - 1) point }
  else if cur.name = "line" then
    match ← idOfFirst cur with
    | none => return polygon
    | some id =>
      let line ← parseVDLine texts (slot polygon.line (id - 1)) cur
      return { polygon with line := setSlot polygon.line (id - 1) line }
  else return polygon

/-- The name of the first child is printed before the loop here, too. -/
def parseVDPolygon (polygon : VDPolygon N F) (node : XmlNode) : Except Fault (VDPolygon N F) :=
  if node.children.isEmpty then .error .nullNode
  else node.children.foldlM (parsePolygonChild texts) polygon

end Parse

end VdCamera.Xml
