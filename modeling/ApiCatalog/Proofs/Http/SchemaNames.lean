import ApiCatalog.Proofs.Http.Words

set_option autoImplicit false

/-!
# Names of the schemas of a path

A schema that belongs to the operations of a path is named after the template of the path. What
comes behind the template and a slash says what the schema is for: a dot and the name of a
parameter; or a method, a word and a media type, with slashes in between. The names of parameters
and media types may contain whatever they like. The name can be read nevertheless, since a method
does not begin with a dot, and neither a method nor a word has a slash in it.

## Main definitions

* `ApiCatalog.PathSchema`: the schemas of a path, by what they are for.
* `PathSchema.name`: the name of such a schema.

## Main results

* `PathSchema.spelling_injective`: what comes behind the template can be read in one way only.
* `PathSchema.name_eq_name_iff`: the schemas of a path have different names.
-/

namespace ApiCatalog

/-- A schema that is named after the template of a path, by what it is for. -/
inductive PathSchema where
  /-- For a parameter of a given name. -/
  | parameter (name : String)
  /-- For the requests of a method, in a media type. -/
  | requestBody (method : HttpMethod) (mediaType : String)
  /-- For the responses to a method that are declared for a status key, in a media type. -/
  | response (method : HttpMethod) (status : StatusKey) (mediaType : String)
deriving DecidableEq, Repr

namespace PathSchema

/-- The name of a schema of the path with a given template. -/
def name (template : String) : PathSchema → ModelName
  | parameter name => Naming.pathParameter template name
  | requestBody method mediaType => Naming.requestBody template method mediaType
  | response method status mediaType => Naming.response template method status mediaType

/-- What comes behind the template and a slash. -/
def spelling : PathSchema → List Char
  | parameter name => '.' :: name.toList
  | requestBody method mediaType =>
    method.name.toList ++ '/' :: ("request".toList ++ '/' :: mediaType.toList)
  | response method status mediaType =>
    method.name.toList ++ '/' :: (status.text.toList ++ '/' :: mediaType.toList)

/-- The name of a schema is the template, a slash and the spelling of the schema. -/
theorem toList_name (template : String) (schema : PathSchema) :
    (schema.name template).toList = template.toList ++ '/' :: schema.spelling := by
  cases schema <;>
    simp [name, spelling, Naming.pathParameter, Naming.requestBody, Naming.response]

/-! ## Reading -/

/-- A method does not begin with a dot. -/
theorem name_append_ne_dot (method : HttpMethod) (rest others : List Char) :
    method.name.toList ++ rest ≠ '.' :: others := by
  intro h
  have hfirst := congrArg List.head? h
  cases method <;> simp [HttpMethod.name] at hfirst

/-- The word for requests is not a status key. -/
theorem text_ne_request (status : StatusKey) : "request".toList ≠ status.text.toList := by
  intro h
  have hletter : 'q' ∈ status.text.toList := h ▸ by decide
  exact absurd (StatusKey.mem_text hletter) (by decide)

/-- A method and a word are determined, and what comes after them. -/
theorem content_inj {method method' : HttpMethod} {word word' rest rest' : List Char}
    (hword : '/' ∉ word) (hword' : '/' ∉ word')
    (h : method.name.toList ++ '/' :: (word ++ '/' :: rest) =
      method'.name.toList ++ '/' :: (word' ++ '/' :: rest')) :
    method = method' ∧ word = word' ∧ rest = rest' := by
  obtain ⟨hname, hrest⟩ :=
    append_cons_inj method.slash_not_mem_name method'.slash_not_mem_name h
  exact ⟨HttpMethod.name_injective (String.toList_inj.1 hname), append_cons_inj hword hword' hrest⟩

/-- **What comes behind the template can be read in one way only.**

**Proof sketch.** A dot at the beginning tells the parameters from the rest. There the method ends
at the first slash and the word at the second one, and the word is a status key or is not. -/
theorem spelling_injective : Function.Injective spelling := by
  have hrequest : '/' ∉ "request".toList := by decide
  intro schema other h
  cases schema with
  | parameter name =>
    cases other with
    | parameter name' => exact congrArg parameter (String.toList_inj.1 (List.cons.inj h).2)
    | requestBody method' _ => exact absurd h.symm (name_append_ne_dot method' _ _)
    | response method' _ _ => exact absurd h.symm (name_append_ne_dot method' _ _)
  | requestBody method mediaType =>
    cases other with
    | parameter _ => exact absurd h (name_append_ne_dot method _ _)
    | requestBody method' mediaType' =>
      obtain ⟨rfl, -, hmedia⟩ := content_inj hrequest hrequest h
      rw [String.toList_inj.1 hmedia]
    | response method' status' mediaType' =>
      obtain ⟨-, hword, -⟩ := content_inj hrequest status'.slash_not_mem_text h
      exact absurd hword (text_ne_request status')
  | response method status mediaType =>
    cases other with
    | parameter _ => exact absurd h (name_append_ne_dot method _ _)
    | requestBody method' mediaType' =>
      obtain ⟨-, hword, -⟩ := content_inj status.slash_not_mem_text hrequest h
      exact absurd hword.symm (text_ne_request status)
    | response method' status' mediaType' =>
      obtain ⟨rfl, hword, hmedia⟩ :=
        content_inj status.slash_not_mem_text status'.slash_not_mem_text h
      rw [StatusKey.text_injective (String.toList_inj.1 hword), String.toList_inj.1 hmedia]

/-! ## Names -/

/-- **The schemas of a path have different names**, whatever its template is: two of them share a
name only if they are both for a parameter, both for requests or both for responses, and agree in
the name of the parameter, or in the method, the status key and the media type. -/
theorem name_eq_name_iff (template : String) (schema other : PathSchema) :
    schema.name template = other.name template ↔ schema = other := by
  rw [← String.toList_inj, toList_name, toList_name, List.append_cancel_left_eq,
    List.cons_inj_right]
  exact spelling_injective.eq_iff

end PathSchema

end ApiCatalog
