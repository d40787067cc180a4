/-
# Rules of the modes

Each mode has rules for tokens. A rule deals with its token, or hands it to the rules of another mode,
or has it taken again after changing the mode, or has what may not stand in a table taken as content
and put before the table.

Scripts do not run but count as enabled, and a document is never in quirks mode. Frames are not
covered: their tags are passed over, as they are behind any body.

Key definitions: `Build.Next`, `Build.bodyRules`, `Build.tableRules`, `Build.selectRules`,
`Build.rules`.
-/
import PageQuery.Markup.Formatting

namespace PageQuery

namespace Build

/-- What becomes of a token. -/
inductive Next where
  | done
  | again (token : MarkupToken)
  /-- By the rules of another mode. -/
  | by (mode : InsertionMode)
  /-- By the rules of content, what is inserted being put before the table. -/
  | foster
  deriving DecidableEq, Repr

def isBlank (c : Char) : Bool := Markup.isTagBlank c || c = '\r'

/-! ### The head -/

/-- Elements of the head that may stand in the body. -/
def headNames : List String :=
  ["base", "basefont", "bgsound", "link", "meta", "noframes", "script", "style", "template",
    "title"]

def startTemplate (attributes : List (String × String)) : Build Unit := do
  let _ ← insertElement "template" attributes
  addMarker
  modify fun c => { c with mode := .inTemplate, templateModes := .inTemplate :: c.templateModes }

def endTemplate : Build Unit := do
  if ← isOpen ["template"] then
    popWhile thoroughlyImpliedNames
    popThrough ["template"]
    clearToMarker
    modify fun c => { c with templateModes := c.templateModes.drop 1 }
    resetMode

def leaveHead (token : MarkupToken) : Build Next := do
  pop
  setMode .afterHead
  return .again token

def headRules (token : MarkupToken) : Build Next := do
  match token with
  | .char ch =>
    if isBlank ch then
      insertChar ch
      return .done
    else leaveHead token
  | .startTag name attributes _ =>
    if name = "html" then return .by .inBody
    else if ["base", "basefont", "bgsound", "link", "meta"].contains name then
      insertVoid name attributes
      return .done
    else if name = "title" then
      insertText (.escapable name) name attributes
      return .done
    else if ["noframes", "style", "noscript", "script"].contains name then
      insertText (.raw name) name attributes
      return .done
    else if name = "template" then
      startTemplate attributes
      return .done
    else if name = "head" then return .done
    else leaveHead token
  | .endTag name =>
    if name = "head" then
      pop
      setMode .afterHead
      return .done
    else if ["body", "html", "br"].contains name then leaveHead token
    else if name = "template" then
      endTemplate
      return .done
    else return .done

def beforeHtmlRules (token : MarkupToken) : Build Next := do
  let bare : Build Next := do
    insertBare "html"
    setMode .beforeHead
    return .again token
  match token with
  | .char ch => if isBlank ch then return .done else bare
  | .startTag name attributes _ =>
    if name = "html" then
      let _ ← insertElement name attributes
      setMode .beforeHead
      return .done
    else bare
  | .endTag name => if ["head", "body", "html", "br"].contains name then bare else return .done

/-- Inserts the head element. -/
def insertHead (attributes : List (String × String)) : Build Unit := do
  let n ← insertElement "head" attributes
  modify fun c => { c with head? := some n, mode := .inHead }

def beforeHeadRules (token : MarkupToken) : Build Next := do
  let bare : Build Next := do
    insertHead []
    return .again token
  match token with
  | .char ch => if isBlank ch then return .done else bare
  | .startTag name attributes _ =>
    if name = "html" then return .by .inBody
    else if name = "head" then
      insertHead attributes
      return .done
    else bare
  | .endTag name => if ["head", "body", "html", "br"].contains name then bare else return .done

/-- Opens the head again for what belongs there. -/
def reopenHead (token : MarkupToken) : Build Next := do
  let c ← get
  match c.head? with
  | none => return .done
  | some n =>
    push n
    setMode .inHead
    return .again token

def afterHeadRules (token : MarkupToken) : Build Next := do
  let bare : Build Next := do
    insertBare "body"
    setMode .inBody
    return .again token
  match token with
  | .char ch =>
    if isBlank ch then
      insertChar ch
      return .done
    else bare
  | .startTag name attributes _ =>
    if name = "html" then return .by .inBody
    else if name = "body" then
      let _ ← insertElement name attributes
      setMode .inBody
      return .done
    else if headNames.contains name then reopenHead token
    else if name = "head" || name = "frameset" then return .done
    else bare
  | .endTag name =>
    if name = "template" then return .by .inHead
    else if ["body", "html", "br"].contains name then bare
    else return .done

/-! ### The body -/

/-- Blocks that close an open paragraph and have no other rules. -/
def blockNames : List String :=
  ["address", "article", "aside", "blockquote", "center", "details", "dialog", "dir", "div", "dl",
    "fieldset", "figcaption", "figure", "footer", "header", "hgroup", "main", "menu", "nav", "ol",
    "p", "section", "summary", "ul"]

def headingNames : List String := ["h1", "h2", "h3", "h4", "h5", "h6"]

def formattingNames : List String :=
  ["b", "big", "code", "em", "font", "i", "s", "small", "strike", "strong", "tt", "u"]

/-- Elements that stand at the edge of formatting: formatting does not pass through them. -/
def boundaryNames : List String := ["applet", "marquee", "object"]

/-- The names that an item of a list of this name closes. -/
def itemNames (name : String) : List String := if name = "li" then ["li"] else ["dd", "dt"]

/-- The first open item that the next item closes, searched up to a special element. -/
def openItem? (c : Construction) (names : List String) : List Nat → Option String
  | [] => none
  | n :: rest =>
    if isHtml names c n then some (nameOf c n).2
    else if isSpecial c n && !isHtml ["address", "div", "p"] c n then none
    else openItem? c names rest

def startItem (name : String) (attributes : List (String × String)) : Build Unit := do
  let c ← get
  match openItem? c (itemNames name) c.stack with
  | some item =>
    generateImplied item
    popThrough [item]
  | none => pure ()
  closeParagraph
  let _ ← insertElement name attributes

def startForm (attributes : List (String × String)) : Build Unit := do
  let inTemplate ← isOpen ["template"]
  let c ← get
  if c.form?.isSome && !inTemplate then return
  closeParagraph
  let n ← insertElement "form" attributes
  unless inTemplate do
    modify fun c => { c with form? := some n }

def startButton (attributes : List (String × String)) : Build Unit := do
  if ← inScope endsScope ["button"] then
    generateImplied ""
    popThrough ["button"]
  reconstruct
  let _ ← insertElement "button" attributes

def startSelect (attributes : List (String × String)) : Build Unit := do
  reconstruct
  let _ ← insertElement "select" attributes
  modify fun c => { c with
    mode := if [InsertionMode.inTable, .inCaption, .inTableBody, .inRow, .inCell].contains c.mode
      then .inSelectInTable else .inSelect }

def skipNewline : Build Unit := modify fun c => { c with skipNewline := true }

/-- Names in SVG whose spelling has capital letters. -/
def svgNames : List String :=
  ["altGlyph", "altGlyphDef", "altGlyphItem", "animateColor", "animateMotion", "animateTransform",
    "clipPath", "feBlend", "feColorMatrix", "feComponentTransfer", "feComposite",
    "feConvolveMatrix", "feDiffuseLighting", "feDisplacementMap", "feDistantLight", "feDropShadow",
    "feFlood", "feFuncA", "feFuncB", "feFuncG", "feFuncR", "feGaussianBlur", "feImage", "feMerge",
    "feMergeNode", "feMorphology", "feOffset", "fePointLight", "feSpecularLighting", "feSpotLight",
    "feTile", "feTurbulence", "foreignObject", "glyphRef", "linearGradient", "radialGradient",
    "textPath"]

def lowerCase (s : String) : String := String.ofList (s.toList.map Char.toLower)

/-- The name of an element in its vocabulary's spelling. -/
def spelledIn (space : Namespace) (name : String) : String :=
  match space with
  | .svg => (svgNames.find? fun s => lowerCase s == name).getD name
  | _ => name

/-- Names of attributes in SVG whose spelling has capital letters. -/
def svgAttributeNames : List String :=
  ["attributeName", "attributeType", "baseFrequency", "baseProfile", "calcMode", "clipPathUnits",
    "diffuseConstant", "edgeMode", "filterUnits", "glyphRef", "gradientTransform", "gradientUnits",
    "kernelMatrix", "kernelUnitLength", "keyPoints", "keySplines", "keyTimes", "lengthAdjust",
    "limitingConeAngle", "markerHeight", "markerUnits", "markerWidth", "maskContentUnits", "maskUnits",
    "numOctaves", "pathLength", "patternContentUnits", "patternTransform", "patternUnits", "pointsAtX",
    "pointsAtY", "pointsAtZ", "preserveAlpha", "preserveAspectRatio", "primitiveUnits", "refX", "refY",
    "repeatCount", "repeatDur", "requiredExtensions", "requiredFeatures", "specularConstant",
    "specularExponent", "spreadMethod", "startOffset", "stdDeviation", "stitchTiles", "surfaceScale",
    "systemLanguage", "tableValues", "targetX", "targetY", "textLength", "viewBox", "viewTarget",
    "xChannelSelector", "yChannelSelector", "zoomAndPan"]

/-- The name of an attribute in the spelling of an element's vocabulary. -/
def attributeSpelledIn (space : Namespace) (name : String) : String :=
  match space with
  | .svg => (svgAttributeNames.find? fun s => lowerCase s == name).getD name
  | .math => if name = "definitionurl" then "definitionURL" else name
  | .html => name

/-- Inserts an element of another vocabulary; one that closes itself has no content. -/
def insertForeign (space : Namespace) (name : String) (attributes : List (String × String))
    (selfClosing : Bool) : Build Unit := do
  let attributes := attributes.map fun a => (attributeSpelledIn space a.1, a.2)
  let _ ← insertDraft ⟨space, spelledIn space name, attributes⟩
  if selfClosing then pop

/-- A start tag in the body whose element has rules of its own. -/
def startInBody (name : String) (attributes : List (String × String)) (selfClosing : Bool) :
    Build Next := do
  let insert : Build Unit := do
    let _ ← insertElement name attributes
  if name = "html" || name = "body" || name = "frameset" then return .done
  else if headNames.contains name then return .by .inHead
  else if blockNames.contains name then
    closeParagraph
    insert
    return .done
  else if headingNames.contains name then
    closeParagraph
    if ← currentIs headingNames then pop
    insert
    return .done
  else if name = "pre" || name = "listing" then
    closeParagraph
    insert
    skipNewline
    return .done
  else if name = "form" then
    startForm attributes
    return .done
  else if name = "li" || name = "dd" || name = "dt" then
    startItem name attributes
    return .done
  else if name = "plaintext" then
    closeParagraph
    insert
    modify fun c => { c with textKind := .endless }
    return .done
  else if name = "button" then
    startButton attributes
    return .done
  else if name = "a" then
    endLink
    reconstruct
    insertFormatting name attributes
    return .done
  else if formattingNames.contains name then
    reconstruct
    insertFormatting name attributes
    return .done
  else if name = "nobr" then
    reconstruct
    if ← inScope endsScope ["nobr"] then
      adopt "nobr"
      reconstruct
    insertFormatting name attributes
    return .done
  else if boundaryNames.contains name then
    reconstruct
    insert
    addMarker
    return .done
  else if name = "table" then
    closeParagraph
    insert
    setMode .inTable
    return .done
  else if ["area", "br", "embed", "img", "keygen", "wbr", "input"].contains name then
    reconstruct
    insertVoid name attributes
    return .done
  else if ["param", "source", "track"].contains name then
    insertVoid name attributes
    return .done
  else if name = "hr" then
    closeParagraph
    insertVoid name attributes
    return .done
  else if name = "image" then return .again (.startTag "img" attributes selfClosing)
  else if name = "textarea" then
    insertText (.escapable name) name attributes
    skipNewline
    return .done
  else if name = "xmp" then
    closeParagraph
    reconstruct
    insertText (.raw name) name attributes
    return .done
  else if ["iframe", "noembed", "noscript"].contains name then
    insertText (.raw name) name attributes
    return .done
  else if name = "select" then
    startSelect attributes
    return .done
  else if name = "optgroup" || name = "option" then
    if ← currentIs ["option"] then pop
    reconstruct
    insert
    return .done
  else if name = "rb" || name = "rtc" then
    if ← inScope endsScope ["ruby"] then generateImplied ""
    insert
    return .done
  else if name = "rp" || name = "rt" then
    if ← inScope endsScope ["ruby"] then generateImplied "rtc"
    insert
    return .done
  else if name = "math" || name = "svg" then
    reconstruct
    insertForeign (if name = "svg" then .svg else .math) name attributes selfClosing
    return .done
  else if ["caption", "col", "colgroup", "frame", "head", "tbody", "td", "tfoot", "th", "thead",
      "tr"].contains name then return .done
  else
    reconstruct
    insert
    return .done

/-- Closes elements through one that is in scope. -/
def closeIfInScope (ends : Construction → Nat → Bool) (name exception : String) : Build Unit := do
  if ← inScope ends [name] then
    generateImplied exception
    popThrough [name]

def endForm : Build Unit := do
  if ← isOpen ["template"] then closeIfInScope endsScope "form" ""
  else
    let c ← get
    set { c with form? := none }
    match c.form? with
    | none => pure ()
    | some n =>
      if ← nodeInScope n then
        generateImplied ""
        removeOpen n

def endParagraph : Build Unit := do
  unless ← inScope endsButtonScope ["p"] do insertBare "p"
  closeParagraph

def endInBody (token : MarkupToken) (name : String) : Build Next := do
  if name = "template" then return .by .inHead
  else if name = "body" || name = "html" then
    if ← inScope endsScope ["body"] then
      setMode .afterBody
      return if name = "html" then .again token else .done
    else return .done
  else if name = "p" then
    endParagraph
    return .done
  else if blockNames.contains name || ["button", "listing", "pre"].contains name then
    closeIfInScope endsScope name ""
    return .done
  else if name = "form" then
    endForm
    return .done
  else if name = "li" then
    closeIfInScope endsListScope name name
    return .done
  else if name = "dd" || name = "dt" then
    closeIfInScope endsScope name name
    return .done
  else if headingNames.contains name then
    if ← inScope endsScope headingNames then
      generateImplied ""
      popThrough headingNames
    return .done
  else if formattingNames.contains name || name = "a" || name = "nobr" then
    adopt name
    return .done
  else if boundaryNames.contains name then
    if ← inScope endsScope [name] then
      generateImplied ""
      popThrough [name]
      clearToMarker
    return .done
  else if name = "br" then return .again (.startTag "br" [] false)
  else
    endOther name
    return .done

def bodyRules (token : MarkupToken) : Build Next := do
  match token with
  | .char ch =>
    if ch ≠ '\x00' then
      reconstruct
      insertChar ch
    return .done
  | .startTag name attributes selfClosing => startInBody name attributes selfClosing
  | .endTag name => endInBody token name

def textRules (token : MarkupToken) : Build Next := do
  match token with
  | .char ch =>
    insertChar ch
    return .done
  | .endTag _ =>
    pop
    modify fun c => { c with mode := c.originalMode, textKind := .ordinary }
    return .done
  | .startTag .. => return .done

/-! ### Tables -/

/-- Parts of a table that other parts close. -/
def partNames : List String :=
  ["caption", "col", "colgroup", "tbody", "td", "tfoot", "th", "thead", "tr"]

def sectionNames : List String := ["tbody", "tfoot", "thead"]

def toTable : Build Unit := popTo ["table", "template", "html"]

def toSection : Build Unit := popTo ["tbody", "tfoot", "thead", "template", "html"]

def toRow : Build Unit := popTo ["tr", "template", "html"]

/-- Whether an attribute hides an input. -/
def isHidden (attributes : List (String × String)) : Bool :=
  attributes.any fun a => a.1 == "type" && lowerCase a.2 == "hidden"

def tableRules (token : MarkupToken) : Build Next := do
  match token with
  | .char _ =>
    if ← currentIs fosteringNames then
      modify fun c => { c with originalMode := c.mode, mode := .inTableText, pendingText := [] }
      return .again token
    else return .foster
  | .startTag name attributes _ =>
    if name = "caption" then
      toTable
      addMarker
      let _ ← insertElement name attributes
      setMode .inCaption
      return .done
    else if name = "colgroup" then
      toTable
      let _ ← insertElement name attributes
      setMode .inColumnGroup
      return .done
    else if name = "col" then
      toTable
      insertBare "colgroup"
      setMode .inColumnGroup
      return .again token
    else if sectionNames.contains name then
      toTable
      let _ ← insertElement name attributes
      setMode .inTableBody
      return .done
    else if ["td", "th", "tr"].contains name then
      toTable
      insertBare "tbody"
      setMode .inTableBody
      return .again token
    else if name = "table" then
      if ← inScope endsTableScope ["table"] then
        popThrough ["table"]
        resetMode
        return .again token
      else return .done
    else if ["style", "script", "template"].contains name then return .by .inHead
    else if name = "input" && isHidden attributes then
      insertVoid name attributes
      return .done
    else if name = "form" then
      let inTemplate ← isOpen ["template"]
      let c ← get
      if c.form?.isNone && !inTemplate then
        let n ← insertElement name attributes
        pop
        modify fun c => { c with form? := some n }
      return .done
    else return .foster
  | .endTag name =>
    if name = "table" then
      if ← inScope endsTableScope ["table"] then
        popThrough ["table"]
        resetMode
      return .done
    else if partNames.contains name || name = "body" || name = "html" then return .done
    else if name = "template" then return .by .inHead
    else return .foster

/-- Gives pending characters a place: before the table if one of them is no blank. -/
def flushPending : List Char → Bool → Build Unit
  | [], _ => pure ()
  | ch :: rest, blank => do
    if blank then insertChar ch
    else
      modify fun c => { c with fostering := true }
      reconstruct
      insertChar ch
      modify fun c => { c with fostering := false }
    flushPending rest blank

def tableTextRules (token : MarkupToken) : Build Next := do
  match token with
  | .char ch =>
    if ch ≠ '\x00' then modify fun c => { c with pendingText := ch :: c.pendingText }
    return .done
  | _ =>
    let c ← get
    flushPending c.pendingText.reverse (c.pendingText.all isBlank)
    modify fun c => { c with pendingText := [], mode := c.originalMode }
    return .again token

def endCaption : Build Bool := do
  if ← inScope endsTableScope ["caption"] then
    generateImplied ""
    popThrough ["caption"]
    clearToMarker
    setMode .inTable
    return true
  else return false

def captionRules (token : MarkupToken) : Build Next := do
  match token with
  | .char _ => return .by .inBody
  | .startTag name _ _ =>
    if partNames.contains name then return if ← endCaption then .again token else .done
    else return .by .inBody
  | .endTag name =>
    if name = "caption" then
      let _ ← endCaption
      return .done
    else if name = "table" then return if ← endCaption then .again token else .done
    else if partNames.contains name || name = "body" || name = "html" then return .done
    else return .by .inBody

def columnGroupRules (token : MarkupToken) : Build Next := do
  let other : Build Next := do
    if ← currentIs ["colgroup"] then
      pop
      setMode .inTable
      return .again token
    else return .done
  match token with
  | .char ch =>
    if isBlank ch then
      insertChar ch
      return .done
    else other
  | .startTag name attributes _ =>
    if name = "html" then return .by .inBody
    else if name = "col" then
      insertVoid name attributes
      return .done
    else if name = "template" then return .by .inHead
    else other
  | .endTag name =>
    if name = "colgroup" then
      if ← currentIs ["colgroup"] then
        pop
        setMode .inTable
      return .done
    else if name = "col" then return .done
    else if name = "template" then return .by .inHead
    else other

def tableBodyRules (token : MarkupToken) : Build Next := do
  let leave : Build Next := do
    if ← inScope endsTableScope sectionNames then
      toSection
      pop
      setMode .inTable
      return .again token
    else return .done
  match token with
  | .char _ => return .by .inTable
  | .startTag name attributes _ =>
    if name = "tr" then
      toSection
      let _ ← insertElement name attributes
      setMode .inRow
      return .done
    else if name = "th" || name = "td" then
      toSection
      insertBare "tr"
      setMode .inRow
      return .again token
    else if partNames.contains name then leave
    else return .by .inTable
  | .endTag name =>
    if sectionNames.contains name then
      if ← inScope endsTableScope [name] then
        toSection
        pop
        setMode .inTable
      return .done
    else if name = "table" then leave
    else if partNames.contains name || name = "body" || name = "html" then return .done
    else return .by .inTable

def rowRules (token : MarkupToken) : Build Next := do
  let leave : Build Next := do
    if ← inScope endsTableScope ["tr"] then
      toRow
      pop
      setMode .inTableBody
      return .again token
    else return .done
  match token with
  | .char _ => return .by .inTable
  | .startTag name attributes _ =>
    if name = "th" || name = "td" then
      toRow
      let _ ← insertElement name attributes
      setMode .inCell
      addMarker
      return .done
    else if partNames.contains name then leave
    else return .by .inTable
  | .endTag name =>
    if name = "tr" then
      if ← inScope endsTableScope ["tr"] then
        toRow
        pop
        setMode .inTableBody
      return .done
    else if name = "table" then leave
    else if sectionNames.contains name then
      if ← inScope endsTableScope [name] then leave else return .done
    else if partNames.contains name || name = "body" || name = "html" then return .done
    else return .by .inTable

/-- Closes the open cell. -/
def closeCell : Build Unit := do
  generateImplied ""
  popThrough ["td", "th"]
  clearToMarker
  setMode .inRow

def cellRules (token : MarkupToken) : Build Next := do
  match token with
  | .char _ => return .by .inBody
  | .startTag name _ _ =>
    if partNames.contains name then
      if ← inScope endsTableScope ["td", "th"] then
        closeCell
        return .again token
      else return .done
    else return .by .inBody
  | .endTag name =>
    if name = "td" || name = "th" then
      if ← inScope endsTableScope [name] then
        generateImplied ""
        popThrough [name]
        clearToMarker
        setMode .inRow
      return .done
    else if ["body", "caption", "col", "colgroup", "html"].contains name then return .done
    else if ["table", "tbody", "tfoot", "thead", "tr"].contains name then
      if ← inScope endsTableScope [name] then
        closeCell
        return .again token
      else return .done
    else return .by .inBody

/-! ### Lists of options -/

def endSelect : Build Bool := do
  if ← inScope endsSelectScope ["select"] then
    popThrough ["select"]
    resetMode
    return true
  else return false

def endGroup : Build Unit := do
  let c ← get
  match c.stack with
  | n :: m :: _ => if isHtml ["option"] c n && isHtml ["optgroup"] c m then pop
  | _ => pure ()
  if ← currentIs ["optgroup"] then pop

def selectRules (token : MarkupToken) : Build Next := do
  match token with
  | .char ch =>
    if ch ≠ '\x00' then insertChar ch
    return .done
  | .startTag name attributes _ =>
    if name = "html" then return .by .inBody
    else if name = "option" then
      if ← currentIs ["option"] then pop
      let _ ← insertElement name attributes
      return .done
    else if name = "optgroup" then
      if ← currentIs ["option"] then pop
      if ← currentIs ["optgroup"] then pop
      let _ ← insertElement name attributes
      return .done
    else if name = "hr" then
      if ← currentIs ["option"] then pop
      if ← currentIs ["optgroup"] then pop
      insertVoid name attributes
      return .done
    else if name = "select" then
      let _ ← endSelect
      return .done
    else if ["input", "keygen", "textarea"].contains name then
      return if ← endSelect then .again token else .done
    else if name = "script" || name = "template" then return .by .inHead
    else return .done
  | .endTag name =>
    if name = "optgroup" then
      endGroup
      return .done
    else if name = "option" then
      if ← currentIs ["option"] then pop
      return .done
    else if name = "select" then
      let _ ← endSelect
      return .done
    else if name = "template" then return .by .inHead
    else return .done

def selectInTableRules (token : MarkupToken) : Build Next := do
  let names := ["caption", "table", "tbody", "tfoot", "thead", "tr", "td", "th"]
  match token with
  | .startTag name _ _ =>
    if names.contains name then
      popThrough ["select"]
      resetMode
      return .again token
    else return .by .inSelect
  | .endTag name =>
    if names.contains name then
      if ← inScope endsTableScope [name] then
        popThrough ["select"]
        resetMode
        return .again token
      else return .done
    else return .by .inSelect
  | .char _ => return .by .inSelect

/-! ### Templates and the end -/

/-- The mode for what a template holds, by its first element. -/
def templateModeFor (name : String) : InsertionMode :=
  if ["caption", "colgroup", "tbody", "tfoot", "thead"].contains name then .inTable
  else if name = "col" then .inColumnGroup
  else if name = "tr" then .inTableBody
  else if name = "td" || name = "th" then .inRow
  else .inBody

def templateRules (token : MarkupToken) : Build Next := do
  match token with
  | .char _ => return .by .inBody
  | .startTag name _ _ =>
    if headNames.contains name then return .by .inHead
    else
      let mode := templateModeFor name
      modify fun c => { c with mode, templateModes := mode :: c.templateModes.drop 1 }
      return .again token
  | .endTag name => return if name = "template" then .by .inHead else .done

def afterBodyRules (token : MarkupToken) : Build Next := do
  let back : Build Next := do
    setMode .inBody
    return .again token
  match token with
  | .char ch => if isBlank ch then return .by .inBody else back
  | .startTag name _ _ => if name = "html" then return .by .inBody else back
  | .endTag name =>
    if name = "html" then
      setMode .afterAfterBody
      return .done
    else back

def afterAfterBodyRules (token : MarkupToken) : Build Next := do
  let back : Build Next := do
    setMode .inBody
    return .again token
  match token with
  | .char ch => if isBlank ch then return .by .inBody else back
  | .startTag name _ _ => if name = "html" then return .by .inBody else back
  | .endTag _ => back

/-- The rules of a mode. -/
def rules : InsertionMode → MarkupToken → Build Next
  | .beforeHtml => beforeHtmlRules
  | .beforeHead => beforeHeadRules
  | .inHead => headRules
  | .afterHead => afterHeadRules
  | .inBody => bodyRules
  | .text => textRules
  | .inTable => tableRules
  | .inTableText => tableTextRules
  | .inCaption => captionRules
  | .inColumnGroup => columnGroupRules
  | .inTableBody => tableBodyRules
  | .inRow => rowRules
  | .inCell => cellRules
  | .inSelect => selectRules
  | .inSelectInTable => selectInTableRules
  | .inTemplate => templateRules
  | .afterBody => afterBodyRules
  | .afterAfterBody => afterAfterBodyRules

end Build

end PageQuery
