/-
  EventFlow.Proofs.Program.Code — the text of a program, with its names marked.

  A section of a program is written in tokens. A token is a name that the section binds at top level, a name
  that it uses, a name that an import must bring in, or other text: punctuation, literals, and names that
  functions bind within themselves. What a program binds and uses is read off its tokens, and its text is the
  tokens one after the other.

  The code of a tool is its template with every place and every name marked. Between them stands text that
  keeps places apart (`Stretch`), so each is filled by itself.

  Proved:
  - `writeAll_joined` / `named_joined`: the text and the names of tokens with separators.
  - `render_eq`: the code of a tool, place by place.
  - `sections_eq`: the sections of a program are its code.
-/

import EventFlow.Proofs.Program.Template

namespace EventFlow

inductive NameRole where
  | bound | used
  /-- Used, and to be brought in by an import. -/
  | imported
  deriving DecidableEq

inductive Token where
  | text (s : String)
  | name (role : NameRole) (s : String)

namespace Token

def write : Token → String
  | text s => s
  | name _ s => s

def ofRole : Option NameRole → String → Token
  | none, s => text s
  | some role, s => name role s

@[simp] theorem write_ofRole (role : Option NameRole) (s : String) : (ofRole role s).write = s := by cases role <;> rfl

def writeAll : List Token → String
  | [] => ""
  | p :: code => p.write ++ writeAll code

/-- The names of one role, in order. -/
def named (role : NameRole) : List Token → List String
  | [] => []
  | text _ :: code => named role code
  | name r s :: code => if r = role then s :: named role code else named role code

/-- Blocks of tokens with a separator between them. -/
def joined (sep : String) (blocks : List (List Token)) : List Token := [text sep].intercalate blocks

def listed (role : NameRole) (names : List String) : List (List Token) := names.map fun s => [name role s]

@[simp] theorem writeAll_nil : writeAll [] = "" := rfl

@[simp] theorem writeAll_cons (p : Token) (code : List Token) : writeAll (p :: code) = p.write ++ writeAll code := rfl

@[simp] theorem write_text (s : String) : (text s).write = s := rfl

@[simp] theorem write_name (role : NameRole) (s : String) : (name role s).write = s := rfl

@[simp] theorem writeAll_append (first rest : List Token) : writeAll (first ++ rest) = writeAll first ++ writeAll rest := by
  induction first with
  | nil => rw [List.nil_append, writeAll_nil, String.empty_append]
  | cons p first ih => rw [List.cons_append, writeAll_cons, writeAll_cons, ih, String.append_assoc]

@[simp] theorem writeAll_joined (sep : String) (blocks : List (List Token)) :
    writeAll (joined sep blocks) = Text.join sep (blocks.map writeAll) := by
  unfold joined Text.join
  induction blocks with
  | nil => rfl
  | cons block blocks ih =>
    cases blocks with
    | nil => simp
    | cons next blocks =>
      rw [List.intercalate_cons_cons, List.map_cons, List.map_cons, String.intercalate_cons_cons, writeAll_append,
        writeAll_append, ih]
      simp

@[simp] theorem map_writeAll_listed (role : NameRole) (names : List String) : (listed role names).map writeAll = names := by
  induction names with
  | nil => rfl
  | cons s names ih => rw [listed, List.map_cons, List.map_cons, ← listed, ih]; simp

variable {role : NameRole}

@[simp] theorem named_nil : named role [] = [] := rfl

@[simp] theorem named_text (s : String) (code : List Token) : named role (text s :: code) = named role code := rfl

@[simp] theorem named_name (r : NameRole) (s : String) (code : List Token) :
    named role (name r s :: code) = if r = role then s :: named role code else named role code := rfl

@[simp] theorem named_append (first rest : List Token) : named role (first ++ rest) = named role first ++ named role rest := by
  induction first with
  | nil => rfl
  | cons p first ih =>
    cases p with
    | text s => exact ih
    | name r s =>
      rw [List.cons_append, named_name, named_name, ih]
      split <;> rfl

@[simp] theorem named_joined (sep : String) (blocks : List (List Token)) :
    named role (joined sep blocks) = blocks.flatMap (named role) := by
  unfold joined
  induction blocks with
  | nil => rfl
  | cons block blocks ih =>
    cases blocks with
    | nil => simp
    | cons next blocks => rw [List.intercalate_cons_cons, named_append, named_append, ih, List.flatMap_cons]; simp

@[simp] theorem named_listed (r : NameRole) (names : List String) :
    (listed r names).flatMap (named role) = if r = role then names else [] := by
  induction names with
  | nil => split <;> rfl
  | cons s names ih =>
    rw [listed, List.map_cons, List.flatMap_cons, ← listed, ih]
    split <;> simp_all

end Token

open Token

/-! ## Tools -/

namespace Text

/-- A written text keeps places apart if its characters do. -/
theorem apart_ofList {text : List Char} (h : apart text = true) : apart (String.ofList text).toList = true := by
  rwa [String.toList_ofList]

end Text

namespace IndexTool

/-- A place of the template, or a name in it, with the text behind it up to the next one or to the end of the
    line. The text keeps places apart. -/
structure Stretch where
  role : Option NameRole := none
  part : String := ""
  text : String
  apart : Text.apart text.toList = true := by exact Text.apart_ofList (by decide +kernel)

def frame : List (List Stretch) :=
  [ [ { text := "const " },
      { role := some .bound, part := "__FUNC__", text := " = async (\x7b query \x7d: \x7b query: string \x7d) => \x7b" } ],
    [ { text := "    const headers = \x7b" } ],
    [ { text := "        Authorization: `Bearer $\x7b" }, { role := some .used, part := retrievalKeyConstant, text := "\x7d`," } ],
    [ { text := "        \"Content-Type\": \"application/json\"," } ],
    [ { text := "    \x7d;" } ],
    [ { text := "    const projectResponse = await fetch(\"" },
      { part := "__BASE_URL__", text := "/api/v1/projects/current\", \x7b headers \x7d);" } ],
    [ { text := "    if (!projectResponse.ok) \x7b" } ],
    [ { text := "        return \"Could not retrieve project or organization ID\";" } ],
    [ { text := "    \x7d" } ],
    [ { text := "    const project = await projectResponse.json();" } ],
    [ { text := "    const url = `" },
      { part := "__BASE_URL__",
        text := "/api/v1/retrievers/retrieve?project_id=$\x7bproject.id\x7d&organization_id=$\x7bproject.organization_id\x7d`;" } ],
    [ { text := "    const response = await fetch(url, \x7b" } ],
    [ { text := "        method: \"POST\"," } ],
    [ { text := "        headers," } ],
    [ { text := "        body: JSON.stringify(\x7b" } ],
    [ { text := "            mode: \"full\"," } ],
    [ { text := "            query," } ],
    [ { text := "            pipelines: [" } ],
    [ { text := "                \x7b" } ],
    [ { text := "                    name: " }, { part := "__NAME__", text := "," } ],
    [ { text := "                    description: " }, { part := "__DESCRIPTION__", text := "," } ],
    [ { text := "                    pipeline_id: " }, { role := some .used, part := "__INDEX_CONST__", text := "," } ],
    [ { text := "                    preset_retrieval_parameters: \x7b dense_similarity_top_k: " },
      { part := "__TOP_K__", text := " \x7d," } ],
    [ { text := "                \x7d," } ],
    [ { text := "            ]," } ],
    [ { text := "        \x7d)," } ],
    [ { text := "    \x7d);" } ],
    [ { text := "    const data = await response.json();" } ],
    [ { text := "    return JSON.stringify(data);" } ],
    [ { text := "\x7d;" } ],
    [],
    [ { text := "const " }, { role := some .bound, part := "__TOOL__", text := " = " },
      { role := some .imported, part := "tool", text := "(" }, { role := some .used, part := "__FUNC__", text := ", \x7b" } ],
    [ { text := "    name: " }, { part := "__NAME__", text := "," } ],
    [ { text := "    description: " }, { part := "__DESCRIPTION__", text := "," } ],
    [ { text := "    parameters: " }, { role := some .imported, part := "z", text := ".object(\x7b" } ],
    [ { text := "        query: " },
      { role := some .imported, part := "z",
        text := ".string(\x7b description: \"The query to search the index\" \x7d)," } ],
    [ { text := "    \x7d)," } ],
    [ { text := "\x7d);" } ] ]

/-- A line of the template with something written for each part. -/
def lineWith (write : String → String) (line : List Stretch) : List Token :=
  line.flatMap fun s => [Token.ofRole s.role (write s.part), .text s.text]

def code (t : IndexTool) (topK : Nat) : List Token := joined "\n" (frame.map (lineWith (t.written topK)))

theorem template_eq : template = Text.join "\n" (frame.map fun line => writeAll (lineWith id line)) := by
  simp only [template, frame, lineWith, List.map_cons, List.map_nil, List.flatMap_cons, List.flatMap_nil, List.append_nil,
    List.cons_append, List.nil_append, writeAll_cons, writeAll_nil, write_ofRole, write_text, id_eq, String.empty_append,
    String.append_empty]
  simp [retrievalKeyConstant]

variable {f : List Char → List Char}

/-- A line of the template is filled part by part. -/
theorem filled_line (piecewise : Text.Piecewise f) (line : List Stretch) : f (writeAll (lineWith id line)).toList =
    (writeAll (lineWith (fun part => String.ofList (f part.toList)) line)).toList := by
  induction line with
  | nil => exact piecewise.nil
  | cons s line ih =>
    have split (write : String → String) : (writeAll (lineWith write (s :: line))).toList =
        (write s.part).toList ++ (s.text.toList ++ (writeAll (lineWith write line)).toList) := by
      rw [lineWith, List.flatMap_cons, ← lineWith]
      simp
    rw [split, split, piecewise.split s.apart, ih, id_eq, String.toList_ofList]

/-- The template is filled part by part. -/
theorem filled_template (piecewise : Text.Piecewise f) : String.ofList (f template.toList) =
    writeAll (joined "\n" (frame.map (lineWith fun part => String.ofList (f part.toList)))) := by
  refine String.toList_inj.mp ?_
  have newline : Text.apart "\n".toList = true := by decide
  rw [String.toList_ofList, template_eq, Text.join, String.toList_intercalate, piecewise.intercalate newline,
    writeAll_joined, Text.join, String.toList_intercalate]
  simp only [List.map_map, Function.comp_def, filled_line piecewise]

/-- The code of a tool, place by place. -/
theorem render_eq (t : IndexTool) (topK : Nat) : t.render topK = writeAll (t.code topK) :=
  filled_template (fill_piecewise (t.places_marked topK))

end IndexTool

/-! ## Sections -/

namespace Import

def code (i : Import) : List Token :=
  [.text "import \x7b "] ++ joined ", " (listed .bound i.names) ++
    [.text " \x7d from ", .text (Program.literal i.package), .text ";"]

theorem render_eq (i : Import) : i.render = writeAll i.code := by
  simp [render, code, ← String.append_assoc]

end Import

namespace Constant

def valueCode : Constant → List Token
  | model m keyed =>
    [.text "new ", .name .imported m.provider.className, .text "(\x7b model: ", .text (Program.literal m.modelId),
      .text ", temperature: ", .text (numberText m.temperature)] ++
    (if keyed then [.text ", apiKey: ", .name .used m.provider.keyConstant] else []) ++ [.text " \x7d)"]
  | c => [.text c.value]

def code (c : Constant) : List Token :=
  [.text "const ", .name .bound c.name, .text " = "] ++ c.valueCode ++ [.text ";"]

theorem render_eq (c : Constant) : c.render = writeAll c.code := by
  have value : c.value = writeAll c.valueCode := by
    cases c with
    | model m keyed => cases keyed <;> simp [Constant.value, valueCode, ← String.append_assoc]
    | _ => simp [valueCode]
  simp [render, code, value, ← String.append_assoc]

end Constant

namespace Handler

def sendingCode (event value : String) : List Token :=
  [.text "    return ", .name .used event, .text ".with(", .text value, .text ");"]

def bodyCode : Action → List (List Token)
  | .forward event => [sendingCode event "ctx.data"]
  | .ask request prompt => [sendingCode request (Program.literal prompt)]
  | .consult model tools systemPrompt event =>
    [ [.text "    const configuredAgent = ", .name .imported "agent", .text "(\x7b"],
      [.text "        llm: ", .name .used model, .text ","],
      [.text "        tools: ["] ++ joined ", " (listed .used tools) ++ [.text "],"] ] ++
    (systemPrompt.map fun p =>
      [.text "        systemPrompt: ", .text (Program.literal p), .text ","]).toList ++
    [ [.text "    \x7d);"],
      [.text "    const result = await configuredAgent.run(ctx.data);"],
      sendingCode event "result.data.result" ]

def code (h : Handler) : List Token :=
  joined "\n"
    ([ [.name .used "workflow", .text ".handle(["] ++ joined ", " (listed .used h.triggers) ++
        [.text "], async ", .text (parameters h.action), .text " => \x7b"] ] ++
      bodyCode h.action ++ [[.text "\x7d);"]])

theorem render_eq (h : Handler) : h.render = writeAll h.code := by
  have sends (event value : String) : sending event value = writeAll (sendingCode event value) := by
    simp [sending, sendingCode, ← String.append_assoc]
  have body : body h.action = (bodyCode h.action).map writeAll := by
    cases h.action with
    | consult model tools systemPrompt event =>
      cases systemPrompt <;> simp [Handler.body, bodyCode, sends, ← String.append_assoc]
    | _ => simp [Handler.body, bodyCode, sends]
  simp [render, code, body, ← String.append_assoc]

end Handler

namespace Answer

def code (a : Answer) : List (List Token) :=
  [ [.text "        \x7d else if (", .name .used a.request, .text ".include(event)) \x7b"],
    [.text "            const input = await ", .name .used "readline", .text ".question(event.data);"],
    [.text "            ", .name .used "sendEvent", .text "(", .name .used a.event, .text ".with(input));"] ]

theorem render_eq (a : Answer) : a.render = a.code.map writeAll := by
  simp [render, code, ← String.append_assoc]

end Answer

namespace Program

def eventCode (name : String) : List Token :=
  [.text "const ", .name .bound name, .text " = ", .name .imported "workflowEvent", .text "<any>();"]

def driverCode (p : Program) : List Token :=
  joined "\n"
    ([[.text "const \x7b ", .name .bound "stream", .text ", ", .name .bound "sendEvent", .text " \x7d = ",
        .name .used "workflow", .text ".createContext();"]] ++
      (if p.readsInput then
        [ [.text "const ", .name .bound "readline", .text " = ", .name .imported "createInterface", .text "(\x7b"],
          [.text "    input: process.stdin,"],
          [.text "    output: process.stdout,"],
          [.text "\x7d);"] ]
      else []) ++
      [ [],
        [.name .used "sendEvent", .text "(", .name .used startEvent, .text ".with());"],
        [],
        [.text "(async () => \x7b"],
        [.text "    for await (const event of ", .name .used "stream", .text ") \x7b"],
        [.text "        if (", .name .used stopEvent, .text ".include(event)) \x7b"],
        [.text "            break;"] ] ++
      p.answers.flatMap Answer.code ++
      [ [.text "        \x7d"],
        [.text "    \x7d"] ] ++
      (if p.readsInput then [[.text "    ", .name .used "readline", .text ".close();"]] else []) ++
      [[.text "\x7d)();"]])

theorem driver_eq (p : Program) : p.driver = writeAll p.driverCode := by
  have answers : p.answers.flatMap Answer.render = (p.answers.flatMap Answer.code).map writeAll := by
    rw [List.map_flatMap]
    exact congrArg p.answers.flatMap (funext Answer.render_eq)
  rw [driver, driverCode, answers]
  cases p.readsInput <;> simp [startEvent, stopEvent]

def importsCode (p : Program) : List Token := joined "\n" (p.imports.map Import.code)

/-- The sections between the imports and the driver. -/
def declarations (p : Program) : List (List Token) :=
  [ joined "\n" (p.constants.map Constant.code),
    [.text "const ", .name .bound "workflow", .text " = ", .name .imported "createWorkflow", .text "();"],
    joined "\n\n" (p.tools.map fun t => t.code p.topK),
    joined "\n" (p.events.map eventCode),
    joined "\n\n" (p.handlers.map Handler.code) ]

def code (p : Program) : List (List Token) := [p.importsCode] ++ p.declarations ++ [p.driverCode]

/-- The sections of a program are its code. -/
theorem sections_eq (p : Program) : p.sections = p.code.map writeAll := by
  have event (name : String) : renderEvent name = writeAll (eventCode name) := by
    simp [renderEvent, eventCode, ← String.append_assoc]
  have workflow : "const workflow = createWorkflow();" =
      writeAll [.text "const ", .name .bound "workflow", .text " = ", .name .imported "createWorkflow", .text "();"] := by
    simp
  simp only [sections, code, importsCode, declarations, List.cons_append, List.nil_append, List.map_cons, List.map_nil,
    writeAll_joined, List.map_map, driver_eq, ← workflow]
  simp only [Function.comp_def, ← Import.render_eq, ← Constant.render_eq, ← IndexTool.render_eq, ← event,
    ← Handler.render_eq]

end Program
end EventFlow
