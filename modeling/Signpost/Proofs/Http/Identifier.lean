import Signpost.Proofs.Form
import Signpost.Proofs.Http.SamePath

namespace Signpost.Http

/-! The texts that can be written to a header. -/

/-- A control character of ASCII other than the tab. -/
def Unwritable (c : Char) : Prop := (c.toNat < 0x20 ∨ c.toNat = 0x7f) ∧ c ≠ '\t'

theorem isHeaderByte_iff {b : UInt8} :
    isHeaderByte b = true ↔ (0x20 ≤ b.toNat ∧ b.toNat ≠ 0x7f) ∨ b.toNat = 9 := by
  simp [isHeaderByte, UInt8.le_iff_toNat_le, ← UInt8.toNat_inj]

theorem isHeaderByte_encodeChar_iff (c : Char) :
    (∀ b ∈ Text.encodeChar c, isHeaderByte b = true) ↔ ¬ Unwritable c := by
  have htab : c = '\t' ↔ c.toNat = 9 := ⟨fun h => h ▸ rfl, fun h => Char.toNat_inj.mp h⟩
  rw [Unwritable, Ne, htab]
  by_cases hascii : c.toNat < 0x80
  · rw [Text.encodeChar, if_pos hascii, List.forall_mem_singleton, isHeaderByte_iff,
      Text.toNat_toUInt8 (by omega)]
    omega
  · apply iff_of_true
    · intro b hb
      have hhigh := Text.le_of_mem_encodeChar (by omega) b hb
      rw [isHeaderByte_iff]
      omega
    · omega

theorem all_isHeaderByte_iff (text : String) :
    (Text.encodeUtf8 text.toList).all isHeaderByte = true ↔
      ∀ c ∈ text.toList, ¬ Unwritable c := by
  simp only [List.all_eq_true, Text.encodeUtf8, List.forall_mem_flatMap,
    isHeaderByte_encodeChar_iff]

theorem headerValue?_eq_some_iff {text : String} {value : List UInt8} :
    headerValue? text = some value ↔
      (∀ c ∈ text.toList, ¬ Unwritable c) ∧ text.toUTF8.data.toList = value := by
  rw [headerValue?, ← all_isHeaderByte_iff, ← Text.encodeUtf8_toList]
  simp only [Option.ite_none_right_eq_some, Option.some_inj]

theorem headerValue?_eq_none_iff {text : String} :
    headerValue? text = none ↔ ∃ c ∈ text.toList, Unwritable c := by
  rw [← Option.not_isSome_iff_eq_none, Option.isSome_iff_exists]
  simp only [headerValue?_eq_some_iff, exists_and_left, exists_eq', and_true, not_forall,
    not_not, exists_prop]

/-! The texts that can be read from a header. -/

/-- Visible characters of ASCII, spaces and tabs, one of them at least. -/
def Legible (value : List UInt8) : Prop :=
  value ≠ [] ∧ ∀ b ∈ value, (0x20 ≤ b.toNat ∧ b.toNat < 0x7f) ∨ b.toNat = 9

theorem isVisibleByte_iff {b : UInt8} :
    isVisibleByte b = true ↔ (0x20 ≤ b.toNat ∧ b.toNat < 0x7f) ∨ b.toNat = 9 := by
  simp [isVisibleByte, UInt8.le_iff_toNat_le, UInt8.lt_iff_toNat_lt, ← UInt8.toNat_inj]

theorem unreadable_iff {value : List UInt8} :
    (value.isEmpty || !value.all isVisibleByte) = true ↔ ¬ Legible value := by
  rw [Legible, not_and_or, Bool.or_eq_true]
  simp [isVisibleByte_iff]

def textOf (value : List UInt8) : String :=
  String.ofList (value.map fun b => Char.ofNat b.toNat)

theorem visibleText?_legible {value : List UInt8} (h : Legible value) :
    Request.visibleText? value = some (textOf value) := by
  rw [Request.visibleText?, if_neg fun hnot => unreadable_iff.mp hnot h, textOf]

theorem visibleText?_illegible {value : List UInt8} (h : ¬ Legible value) :
    Request.visibleText? value = none := by
  rw [Request.visibleText?, if_pos (unreadable_iff.mpr h)]

theorem utf8_textOf {value : List UInt8} (h : Legible value) :
    (textOf value).toUTF8.data.toList = value := by
  have hsmall : ∀ b ∈ value, b.toNat < 0x80 := by
    intro b hb
    have hb := h.2 b hb
    omega
  have hascii : ∀ c ∈ value.map (fun b => Char.ofNat b.toNat), c.toNat < 0x80 := by
    intro c hc
    obtain ⟨b, hb, rfl⟩ := List.mem_map.mp hc
    rw [Form.toNat_ofNat_ascii (hsmall b hb)]
    exact hsmall b hb
  have hbytes : ∀ b ∈ value, (Char.ofNat b.toNat).toNat.toUInt8 = b := by
    intro b hb
    rw [Form.toNat_ofNat_ascii (hsmall b hb)]
    exact UInt8.ofNat_toNat
  rw [← Text.encodeUtf8_toList, textOf, String.toList_ofList, Text.encodeUtf8_ascii hascii,
    List.map_map]
  exact (List.map_congr_left hbytes).trans (List.map_id value)

/-- What can be read can be written. -/
theorem headerValue?_legible {id : String} (h : Legible id.toUTF8.data.toList) :
    headerValue? id = some id.toUTF8.data.toList := by
  rw [headerValue?_eq_some_iff, ← all_isHeaderByte_iff, Text.encodeUtf8_toList,
    List.all_eq_true]
  refine ⟨?_, rfl⟩
  intro b hb
  have hvisible := h.2 b hb
  rw [isHeaderByte_iff]
  omega

/-- The value of the first header with this name, whatever the case of its letters. -/
def FirstValue (headers : List (String × List UInt8)) (name : String)
    (value : List UInt8) :
    Prop :=
  ∃ earlier label later, headers = earlier ++ (label, value) :: later ∧
    label.toLower = name ∧
    ∀ other ∈ earlier, other.1.toLower ≠ name

variable {method text name : String} {headers : List (String × List UInt8)}
  {request : Request} {value : List UInt8} {fresh : String}

theorem lookup_toLower_eq_some_iff :
    (headers.map fun header => (header.1.toLower, header.2)).lookup name = some value ↔
      FirstValue headers name value := by
  rw [List.lookup_eq_some_iff]
  constructor
  · intro h
    obtain ⟨before, after, hsplit, hbefore⟩ := h
    obtain ⟨earlier, rest, rfl, rfl, hrest⟩ := List.map_eq_append_iff.mp hsplit
    obtain ⟨header, later, rfl, hheader, -⟩ := List.map_eq_cons_iff.mp hrest
    obtain ⟨hname, rfl⟩ := Prod.mk.inj hheader
    refine ⟨earlier, header.1, later, rfl, hname, ?_⟩
    intro other hother heq
    have hne := hbefore _ (List.mem_map_of_mem hother)
    exact (bne_iff_ne.mp hne) heq.symm
  · intro h
    obtain ⟨earlier, label, later, rfl, rfl, hearlier⟩ := h
    refine ⟨_, _, by rw [List.map_append, List.map_cons], ?_⟩
    intro other hother
    obtain ⟨header, hheader, rfl⟩ := List.mem_map.mp hother
    exact bne_iff_ne.mpr (hearlier header hheader).symm

theorem Request.readHeaders_ok {kept : List (String × List UInt8)}
    (h : readHeaders headers = .ok kept) :
    kept = headers.map fun header => (header.1.toLower, header.2) := by
  induction headers generalizing kept with
  | nil => exact (Except.ok.inj h).symm
  | cons header rest ih =>
      rw [readHeaders] at h
      split_ifs at h
      obtain ⟨others, hothers, hkept⟩ := exists_of_bind_ok h
      rw [List.map_cons, ← ih hothers]
      exact (Except.ok.inj hkept).symm

theorem Request.read_ok (h : read method text headers = .ok request) :
    ∃ target, Target.read? text = some target ∧
      request =
        ⟨method, target, headers.map fun header => (header.1.toLower, header.2)⟩ := by
  rw [read] at h
  split at h
  · cases h
  split at h
  · cases h
  · rename_i target htarget
    obtain ⟨kept, hkept, hrequest⟩ := exists_of_bind_ok h
    rw [readHeaders_ok hkept] at hrequest
    exact ⟨target, htarget, (Except.ok.inj hrequest).symm⟩

/-- The first value under the name of the header if it can be read, or else the new one. -/
structure Identifies (headers : List (String × List UInt8))
    (fresh id : String) : Prop where
  given : ∀ value, FirstValue headers "x-request-id" value → Legible value →
    id.toUTF8.data.toList = value
  new : (∀ value, FirstValue headers "x-request-id" value → ¬ Legible value) → id = fresh

/-- A new identifier: 36 hexadecimal digits in lower case and hyphens. -/
structure Generated (fresh : String) : Prop where
  length : fresh.length = 36
  digits : ∀ c ∈ fresh.toList, c ∈ "0123456789abcdef-".toList

theorem Generated.headerValue? (h : Generated fresh) :
    headerValue? fresh = some fresh.toUTF8.data.toList := by
  have hwritable : ∀ c ∈ "0123456789abcdef-".toList, ¬ Unwritable c := by
    simp [Unwritable]
  exact headerValue?_eq_some_iff.mpr ⟨fun c hc => hwritable c (h.digits c hc), rfl⟩

theorem id_of_legible (h : Request.read method text headers = .ok request)
    (hfirst : FirstValue headers "x-request-id" value) (hlegible : Legible value)
    (fresh : String) : request.id fresh = textOf value := by
  obtain ⟨target, -, rfl⟩ := Request.read_ok h
  have hgiven : Request.givenId?
      ⟨method, target, headers.map fun header => (header.1.toLower, header.2)⟩ =
        some (textOf value) := by
    rw [Request.givenId?, Request.idHeader, lookup_toLower_eq_some_iff.mpr hfirst,
      Option.bind_some, visibleText?_legible hlegible]
  rw [Request.id, hgiven, Option.getD_some]

theorem id_of_illegible (h : Request.read method text headers = .ok request)
    (hnone : ∀ value, FirstValue headers "x-request-id" value → ¬ Legible value)
    (fresh : String) : request.id fresh = fresh := by
  obtain ⟨target, -, rfl⟩ := Request.read_ok h
  have hgiven : Request.givenId?
      ⟨method, target, headers.map fun header => (header.1.toLower, header.2)⟩ = none := by
    rw [Request.givenId?, Request.idHeader, Option.bind_eq_none_iff]
    intro value hvalue
    exact visibleText?_illegible (hnone value (lookup_toLower_eq_some_iff.mp hvalue))
  rw [Request.id, hgiven, Option.getD_none]

theorem identifies_id (h : Request.read method text headers = .ok request)
    (fresh : String) :
    Identifies headers fresh (request.id fresh) where
  given := by
    intro value hfirst hlegible
    rw [id_of_legible h hfirst hlegible, utf8_textOf hlegible]
  new := fun hnone => id_of_illegible h hnone fresh

theorem headerValue?_id (h : Request.read method text headers = .ok request)
    (hfresh : Generated fresh) :
    headerValue? (request.id fresh) = some (request.id fresh).toUTF8.data.toList := by
  by_cases hgiven : ∃ value, FirstValue headers "x-request-id" value ∧ Legible value
  · obtain ⟨value, hfirst, hlegible⟩ := hgiven
    apply headerValue?_legible
    rwa [(identifies_id h fresh).given value hfirst hlegible]
  · have hnone : ∀ value, FirstValue headers "x-request-id" value → ¬ Legible value :=
      fun value hfirst hlegible => hgiven ⟨value, hfirst, hlegible⟩
    rw [id_of_illegible h hnone]
    exact hfresh.headerValue?

/-- Of the headers only the first value under the name counts. -/
theorem respond_congr {router : Router} {others : List (String × List UInt8)}
    {other : Request} (h : Request.read method text headers = .ok request)
    (hother : Request.read method text others = .ok other)
    (hfirst : ∀ value, FirstValue others "x-request-id" value ↔
      FirstValue headers "x-request-id" value) (fresh : String) :
    respond router other fresh = respond router request fresh := by
  obtain ⟨target, htarget, rfl⟩ := Request.read_ok h
  obtain ⟨target', htarget', rfl⟩ := Request.read_ok hother
  obtain rfl := Option.some.inj (htarget.symm.trans htarget')
  have hlookup :
      (others.map fun header => (header.1.toLower, header.2)).lookup "x-request-id" =
      (headers.map fun header => (header.1.toLower, header.2)).lookup "x-request-id" := by
    apply Option.ext
    intro value
    rw [lookup_toLower_eq_some_iff, hfirst, lookup_toLower_eq_some_iff]
  have hid :
      Request.id
        ⟨method, target, others.map fun header => (header.1.toLower, header.2)⟩ fresh =
      Request.id
        ⟨method, target, headers.map fun header => (header.1.toLower, header.2)⟩ fresh :=
    congrArg (fun value => (value.bind Request.visibleText?).getD fresh) hlookup
  rw [respond, respond, hid]
  rfl

/-- An answer with this identifier in its header and in its body. -/
structure Answer.Carries (answer : Answer) (id : String) : Prop where
  header : answer.requestId = some id.toUTF8.data.toList
  body : ∃ action route args query,
    Json.read answer.body = ⟨story id action route args query, true⟩

/-- Every answer carries one identifier: the first of the request if it can be read, and
else the new one.  What cannot be written to a header is just what has control
characters. -/
theorem one_identifier (router : Router)
    (hread : Request.read method text headers = .ok request)
    (hbody : HasBody method) (hfresh : Generated fresh) :
    (∃ id, Identifies headers fresh id ∧ (respond router request fresh).Carries id) ∧
    (∀ others other, Request.read method text others = .ok other →
      (∀ value, FirstValue others "x-request-id" value ↔
        FirstValue headers "x-request-id" value) →
      respond router other fresh = respond router request fresh) ∧
    ∀ id : String,
      (headerValue? id = none ↔ ∃ c ∈ id.toList, Unwritable c) ∧
      ∀ value, headerValue? id = some value → id.toUTF8.data.toList = value := by
  obtain ⟨target, -, hrequest⟩ := Request.read_ok hread
  have hmethod : HasBody request.method := by
    rw [hrequest]
    exact hbody
  obtain ⟨query, hresolves⟩ := respond_resolves router hmethod fresh
  refine ⟨⟨request.id fresh, identifies_id hread fresh, ?_⟩, ?_, ?_⟩
  · exact ⟨headerValue?_id hread hfresh, _, _, _, query, hresolves.body⟩
  · intro others other hother hfirst
    exact respond_congr hread hother hfirst fresh
  · intro id
    exact ⟨headerValue?_eq_none_iff, fun value h => (headerValue?_eq_some_iff.mp h).2⟩

/-- The first value counts if it can be read, and a later one does not even if the first
cannot. -/
theorem one_identifier_first :
    ∃ (router : Router) (request other : Request) (id fresh : String),
      fresh = "0f8fad5b-d9cb-469f-a165-70867728950e" ∧ Generated fresh ∧
      Request.read "GET" "/" [("Accept", [42]), ("X-Request-ID", [97, 9, 98]),
        ("x-request-id", [99])] = .ok request ∧
      Request.read "GET" "/" [("x-request-id", [0xe9]), ("x-request-id", [99])] =
        .ok other ∧
      id.toUTF8.data.toList = [97, 9, 98] ∧ (respond router request fresh).Carries id ∧
      (respond router other fresh).Carries fresh := by
  have hbody : HasBody "GET" := ⟨by decide, by decide⟩
  have hfresh : Generated "0f8fad5b-d9cb-469f-a165-70867728950e" := ⟨by decide, by simp⟩
  obtain ⟨request, hrequest⟩ : ∃ request, Request.read "GET" "/" [("Accept", [42]),
      ("X-Request-ID", [97, 9, 98]), ("x-request-id", [99])] = .ok request := ⟨_, rfl⟩
  obtain ⟨other, hother⟩ : ∃ other, Request.read "GET" "/" [("x-request-id", [0xe9]),
      ("x-request-id", [99])] = .ok other := ⟨_, rfl⟩
  obtain ⟨⟨id, hid, hcarries⟩, -⟩ := one_identifier .empty hrequest hbody hfresh
  obtain ⟨⟨new, hnew, hrenewed⟩, -⟩ := one_identifier .empty hother hbody hfresh
  have hgiven : id.toUTF8.data.toList = [97, 9, 98] := by
    apply hid.given
    · exact lookup_toLower_eq_some_iff.mp (by decide +kernel)
    · simp [Legible]
  have hfirst : ∀ value, FirstValue [("x-request-id", [0xe9]), ("x-request-id", [99])]
      "x-request-id" value → ¬ Legible value := by
    intro value hvalue
    have hlookup := lookup_toLower_eq_some_iff.mpr hvalue
    have hbytes : value = [0xe9] := by
      apply Option.some.inj
      rw [← hlookup]
      decide +kernel
    rw [hbytes]
    simp [Legible]
  rw [hnew.new hfirst] at hrenewed
  exact ⟨.empty, request, other, id, _, rfl, hfresh, hrequest, hother, hgiven, hcarries,
    hrenewed⟩

end Signpost.Http
