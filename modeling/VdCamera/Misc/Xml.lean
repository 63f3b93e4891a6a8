import VdCamera.Misc.Decimal

/-!
# XML trees

Elements with attributes, and text, as a library for XML gives them.
-/

namespace VdCamera.Misc

inductive XmlNode
  | element (name : String) (attrs : List (String × List UInt8)) (children : List XmlNode)
  | text (content : List UInt8)

namespace XmlNode

/-- `xmlNode.name`; that of a text node is fixed. -/
def name : XmlNode → String
  | .element name _ _ => name
  | .text _ => "text"

/-- `xmlNode.properties`. -/
def attrs : XmlNode → List (String × List UInt8)
  | .element _ attrs _ => attrs
  | .text _ => []

def children : XmlNode → List XmlNode
  | .element _ _ children => children
  | .text _ => []

mutual

/-- `xmlNodeGetContent`: all text in the node. -/
def content : XmlNode → List UInt8
  | .element _ _ children => contents children
  | .text content => content

def contents : List XmlNode → List UInt8
  | [] => []
  | c :: cs => content c ++ contents cs

end

/-- `xmlNewNode` with the children that are added to it. -/
def new (name : String) (children : List XmlNode) : XmlNode := .element name [] children

/-- `xmlNewProp`. -/
def newProp (name : String) (value : List UInt8) : XmlNode → XmlNode
  | .element n attrs children => .element n (attrs ++ [(name, value)]) children
  | .text content => .text content

/-- `xmlGetProp`. -/
def getProp (node : XmlNode) (name : String) : Option (List UInt8) := node.attrs.lookup name

section

variable (n : String) (cs : List XmlNode) (value : List UInt8)

@[simp] theorem name_new : (new n cs).name = n := rfl

@[simp] theorem attrs_new : (new n cs).attrs = [] := rfl

@[simp] theorem children_new : (new n cs).children = cs := rfl

@[simp] theorem name_newProp (m : String) : (newProp m value (new n cs)).name = n := rfl

@[simp] theorem attrs_newProp (m : String) :
    (newProp m value (new n cs)).attrs = [(m, value)] := rfl

@[simp] theorem children_newProp (m : String) : (newProp m value (new n cs)).children = cs := rfl

@[simp]
theorem content_new_text : (new n [.text value]).content = value := by
  simp [new, content, contents]

end

/-- The first attribute is the one that is got by its name. -/
theorem getProp_of_first {node : XmlNode} {name : String} {value : List UInt8}
    {rest : List (String × List UInt8)} (h : node.attrs = (name, value) :: rest) :
    node.getProp name = some value := by
  simp [getProp, h]

end XmlNode

end VdCamera.Misc
