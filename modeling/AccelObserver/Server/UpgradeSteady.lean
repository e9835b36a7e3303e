import AccelObserver.Server.UpgradeVariants

/-!
# When case and blanks do not matter

The answers to a request are steady where no header that comes and goes is
reached, or where it gives the answer that is given without it.  A variant in
small letters and without blanks shows what is given without them, and a
variant with one header spelled out what that header gives.
-/

namespace AccelObserver.Server.UpgradeSteady

open AccelObserver.Library
open AccelObserver.Library.CString (lower)
open AccelObserver.Library.FirstMatch
open AccelObserver.Server.UpgradeAnswers
open AccelObserver.Server.UpgradeRequests
open AccelObserver.Server.UpgradeVariants
open AccelObserver.Server.WebUpgrade
open AccelObserver.Server.WsHandshake

/-! ## The condition -/

/-- The last of them, or an empty key. -/
def subFixedKey (request : Request) : Bytes :=
  (request.headers.reverse.findSome? subFixed).getD []

/--
No header that comes and goes is behind the last mention in a value, or each
is answered like that mention.
-/
def SubSteady (request : Request) : Prop :=
  ∀ header ∈ upTo subFixed request.headers.reverse,
    namesKey header = true →
      answer (trim header.value) = answer (subFixedKey request)

/-- The key that `WebInterface` takes without any header's name. -/
def webFixedKey (request : Request) : Bytes :=
  (((exactIn request.requestLine).or
      (request.headers.findSome? fun header => exactIn header.value)).or
    ((anyCaseIn request.requestLine).or
      (request.headers.findSome? fun header => anyCaseIn header.value))).getD []

/-- The request asks for an upgrade without any header's name. -/
def fixedUpgrade (request : Request) : Bool :=
  isWs request.requestLine ||
    request.headers.any fun header => isWs header.value

/-- The bytes of a request without the blanks. -/
def bareLength (requestLine : Bytes) : List Header → Nat
  | [] => requestLine.length + 4
  | header :: headers =>
      header.name.length + header.value.length + 3 +
        bareLength requestLine headers

/--
There is no room for a blank.  Or the request asks for an upgrade in any case,
and the headers that come and go up to the first mention in a value are
answered like the mention; or it asks in none.
-/
def WebSteady (request : Request) : Prop :=
  bareLength request.requestLine request.headers < 4095 →
    if fixedUpgrade request then
      exactIn request.requestLine = none →
        ∀ header ∈ upTo (fun header => exactIn header.value) request.headers,
          namesKey header = true →
            answer (webTrim header.value) = answer (webFixedKey request)
    else ∀ header ∈ request.headers, namesUpgrade header = false

/-! ## The size of a variant -/

def blankCount (headers : List Header) : Nat :=
  (headers.map Header.blanks).sum

theorem length_textOf (requestLine : Bytes) (headers : List Header) :
    (textOf requestLine headers).length =
      bareLength requestLine headers + blankCount headers := by
  induction headers with
  | nil => simp [textOf, linesOf, bareLength, blankCount, Lines.crlf]
  | cons header headers induction =>
      rw [textOf, linesOf, List.flatMap_cons] at induction ⊢
      rw [bareLength, blankCount, List.map_cons, List.map_cons, List.sum_cons]
      rw [blankCount] at induction
      simp only [List.flatMap_cons, List.length_append, Lines.crlf,
        Header.line, Header.behind, List.length_cons, List.length_nil,
        List.length_replicate] at induction ⊢
      omega

theorem bareLength_of_sameField
    {headers others : List Header}
    (fields : List.Forall₂ SameField headers others) (requestLine : Bytes) :
    bareLength requestLine others = bareLength requestLine headers := by
  induction fields with
  | nil => rfl
  | @cons header other headers others field _ induction =>
      have names := congrArg List.length field.1
      rw [lower, lower, List.length_map, List.length_map] at names
      rw [bareLength, bareLength, induction, names, field.2]

theorem bareLength_lt (request : Request) :
    bareLength request.requestLine request.headers < 4096 := by
  have short := request.short
  rw [length_textOf] at short
  omega

/-- A list of headers of the same fields makes a variant, where it fits. -/
theorem exists_variant
    (request : Request) {others : List Header}
    (fields : List.Forall₂ SameField request.headers others)
    (fits :
      bareLength request.requestLine request.headers + blankCount others <
        4096) :
    ∃ other, Variant request other ∧ other.headers = others := by
  rw [← bareLength_of_sameField fields, ← length_textOf] at fits
  exact
    ⟨{ requestLine := request.requestLine
       headers := others
       requestLineBytes := request.requestLineBytes
       short := fits },
      { requestLine := rfl, headers := fields }, rfl⟩

theorem forall₂_small (headers : List Header) :
    List.Forall₂ SameField headers (headers.map small) := by
  rw [List.forall₂_map_right_iff, List.forall₂_same]
  exact fun header _ => sameField_small header

theorem blankCount_small (headers : List Header) :
    blankCount (headers.map small) = 0 := by
  induction headers with
  | nil => rfl
  | cons header headers induction =>
      rw [blankCount, List.map_cons, List.map_cons, List.sum_cons]
      rw [blankCount] at induction
      rw [induction]
      rfl

/-- The variant in small letters without blanks. -/
theorem exists_small (request : Request) :
    ∃ other, Variant request other ∧
      other.headers = request.headers.map small := by
  apply exists_variant request (forall₂_small request.headers)
  rw [blankCount_small]
  exact bareLength_lt request

/-- The variant with one header spelled out. -/
theorem exists_picked
    {request : Request} {text lowered : String}
    (same : lower (ascii text) = ascii lowered)
    {before after : List Header} {header : Header}
    (split : request.headers = before ++ header :: after)
    (named : endsWith lowered (lower header.name) = true) {blanks : Nat}
    (fits :
      bareLength request.requestLine request.headers + blanks < 4096) :
    ∃ picked other,
      Variant request other ∧
        other.headers = before.map small ++ picked :: after.map small ∧
        SameField header picked ∧ picked.blanks = blanks ∧
        endsWith text picked.name = true := by
  rcases exists_respelled same named blanks with
    ⟨picked, field, rfl, spelled⟩
  suffices variant :
      ∃ other, Variant request other ∧
        other.headers = before.map small ++ picked :: after.map small by
    rcases variant with ⟨other, variant, headers⟩
    exact ⟨picked, other, variant, headers, field, rfl, spelled⟩
  apply exists_variant request
  · rw [split]
    exact List.rel_append (forall₂_small before)
      (.cons field (forall₂_small after))
  · have blanks :
        blankCount (before.map small ++ picked :: after.map small) =
          picked.blanks := by
      have first := blankCount_small before
      have last := blankCount_small after
      rw [blankCount] at first last ⊢
      rw [List.map_append, List.map_cons, List.sum_append, List.sum_cons,
        first, last, Nat.zero_add, Nat.add_zero]
    rw [blanks]
    exact fits

/-! ## The key of `WsSubscriber` in a variant -/

/-- The key is the fixed one, or that of a header that can be reached. -/
theorem subKey_of_variant
    {request other : Request} (variant : Variant request other) :
    subKey other.headers = subFixedKey request ∨
      ∃ header ∈ upTo subFixed request.headers.reverse,
        namesKey header = true ∧
          subKey other.headers = trim header.value := by
  have varies :
      List.Forall₂ (Varies subFixed subOwn subKeyOf) request.headers.reverse
        other.headers.reverse :=
    List.forall₂_reverse_iff.mpr
      (variant.headers.imp fun _ _ field => subKeyOf_varies field)
  rw [subKey, subFixedKey]
  rcases findSome?_of_varies varies with
    same | ⟨header, member, key, owned, first⟩
  · exact .inl (by rw [same])
  · rw [subOwn] at owned
    split_ifs at owned with named
    exact .inr ⟨header, member, named, by rw [first, ← owned]; rfl⟩

theorem subKey_small (headers : List Header) :
    subKey (headers.map small) =
      (headers.reverse.findSome? subFixed).getD [] := by
  have same : subKeyOf ∘ small = subFixed := funext subKeyOf_small
  rw [subKey, ← List.map_reverse, List.findSome?_map, same]

/-- A header that can be reached gives its own key in some variant. -/
theorem exists_subKey
    {request : Request} {header : Header}
    (reached : header ∈ upTo subFixed request.headers.reverse)
    (named : namesKey header = true) :
    ∃ other, Variant request other ∧
      subKey other.headers = trim header.value := by
  rcases exists_of_mem_upTo reached with ⟨before, after, split, silent⟩
  have forward :
      request.headers = after.reverse ++ header :: before.reverse := by
    rw [← List.reverse_reverse request.headers, split]
    simp
  rcases @exists_picked _ "Sec-WebSocket-Key" _ (by decide) _ _ _ forward
      named 0 (bareLength_lt request)
    with ⟨picked, other, variant, headers, field, _, spelled⟩
  refine ⟨other, variant, ?_⟩
  have takes : subKeyOf picked = some (trim header.value) := by
    rw [subKeyOf, subTakes, spelled, Bool.true_or, Bool.true_or, if_pos rfl,
      field.2]
  have silentSmall : ∀ other ∈ before.map small, subKeyOf other = none := by
    intro other member
    rcases List.mem_map.mp member with ⟨first, inBefore, rfl⟩
    rw [subKeyOf_small]
    exact silent first inBefore
  have backward :
      other.headers.reverse =
        before.map small ++ picked :: (after.map small) := by
    rw [headers]
    simp
  rw [subKey, backward, findSome?_of_silent silentSmall takes]
  rfl

/-- `WsSubscriber` is steady where every variant gets the fixed answer. -/
theorem subSteady_iff (request : Request) :
    SubSteady request ↔
      ∀ other, Variant request other →
        answer (subKey other.headers) = answer (subFixedKey request) := by
  constructor
  · intro steady other variant
    rcases subKey_of_variant variant with same | ⟨header, reached, named, own⟩
    · rw [same]
    · rw [own]
      exact steady header reached named
  · intro same header reached named
    rcases exists_subKey reached named with ⟨other, variant, own⟩
    rw [← own]
    exact same other variant

/-! ## The decision of `WebInterface` in a variant -/

/-- What is decided without any header's name. -/
def fixedDecision (request : Request) : Option (Option Bytes) :=
  if fixedUpgrade request then some (answer (webFixedKey request)) else none

theorem findSome?_value_of_blanks
    {read : Header → Option Bytes} {within : Bytes → Option Bytes}
    (reads : ∀ header : Header, header.blanks = 0 →
      read header = within header.value)
    {headers others : List Header}
    (fields : List.Forall₂ SameField headers others)
    (blanks : ∀ header ∈ others, header.blanks = 0) :
    others.findSome? read =
      headers.findSome? fun header => within header.value := by
  induction fields with
  | nil => rfl
  | @cons header other headers others field _ induction =>
      rcases List.forall_mem_cons.mp blanks with ⟨here, later⟩
      rw [List.findSome?_cons, List.findSome?_cons, reads other here,
        field.2, induction later]

theorem any_value_of_blanks
    {headers others : List Header}
    (fields : List.Forall₂ SameField headers others)
    (blanks : ∀ header ∈ others, header.blanks = 0) :
    others.any upgradeOf = headers.any fun header => isWs header.value := by
  induction fields with
  | nil => rfl
  | @cons header other headers others field _ induction =>
      rcases List.forall_mem_cons.mp blanks with ⟨here, later⟩
      rw [List.any_cons, List.any_cons, upgradeOf_of_blanks here, field.2,
        induction later]

/-- Without blanks no header is taken by its name. -/
theorem webDecision_of_blanks
    {request other : Request} (variant : Variant request other)
    (blanks : ∀ header ∈ other.headers, header.blanks = 0) :
    webDecision other = fixedDecision request := by
  rw [webDecision, asksWeb, webKey, variant.requestLine,
    any_value_of_blanks variant.headers blanks,
    findSome?_value_of_blanks (fun _ => exactOf_of_blanks) variant.headers
      blanks,
    findSome?_value_of_blanks (fun _ => anyCaseOf_of_blanks) variant.headers
      blanks]
  rfl

/-- Where a blank does not fit, no variant has one. -/
theorem blanks_of_full
    {request other : Request} (variant : Variant request other)
    (full : ¬ bareLength request.requestLine request.headers < 4095) :
    ∀ header ∈ other.headers, header.blanks = 0 := by
  have short := other.short
  rw [length_textOf, variant.requestLine,
    bareLength_of_sameField variant.headers] at short
  have noBlanks : blankCount other.headers = 0 := by omega
  intro header member
  rw [blankCount, List.sum_eq_zero_iff_forall_eq_nat] at noBlanks
  exact noBlanks _ (List.mem_map_of_mem member)

/-- The key is the fixed one, or that of a header that can be reached. -/
theorem webKey_of_variant
    {request other : Request} (variant : Variant request other) :
    webKey other.requestLine other.headers = webFixedKey request ∨
      exactIn request.requestLine = none ∧
        ∃ header ∈ upTo (fun header => exactIn header.value) request.headers,
          namesKey header = true ∧
            webKey other.requestLine other.headers =
              webTrim header.value := by
  rw [webKey, webFixedKey, variant.requestLine]
  cases inLine : exactIn request.requestLine with
  | some key => exact .inl rfl
  | none =>
      have named {header : Header} {key : Bytes}
          (owned : webOwn header = some key) :
          namesKey header = true ∧ key = webTrim header.value := by
        rw [webOwn] at owned
        split_ifs at owned with names
        exact ⟨names, (Option.some.inj owned).symm⟩
      rcases findSome?_of_varies
          (variant.headers.imp fun _ _ field => exactOf_varies field)
        with same | ⟨header, member, key, owned, first⟩
      · cases exactly :
            request.headers.findSome? fun header => exactIn header.value with
        | some key =>
            rw [same, exactly]
            exact .inl rfl
        | none =>
            rw [same, exactly]
            cases anyCaseIn request.requestLine with
            | some key => exact .inl rfl
            | none =>
                rcases findSome?_of_varies
                    (variant.headers.imp
                      fun _ _ field => anyCaseOf_varies field)
                  with alsoSame | ⟨header, member, key, owned, first⟩
                · rw [alsoSame]
                  exact .inl rfl
                · right
                  rw [first, upTo_of_findSome?_none exactly]
                  exact ⟨rfl, header, mem_of_mem_upTo member,
                    (named owned).1, (named owned).2⟩
      · right
        rw [first]
        exact ⟨rfl, header, member, (named owned).1, (named owned).2⟩

/-- A header that can be reached gives its own key in some variant. -/
theorem exists_webKey
    {request : Request}
    (room : bareLength request.requestLine request.headers < 4095)
    (unnamed : exactIn request.requestLine = none) {header : Header}
    (reached :
      header ∈ upTo (fun header => exactIn header.value) request.headers)
    (named : namesKey header = true) :
    ∃ other, Variant request other ∧
      webKey other.requestLine other.headers = webTrim header.value := by
  rcases exists_of_mem_upTo reached with ⟨before, after, split, silent⟩
  rcases @exists_picked _ "Sec-WebSocket-Key" _ (by decide) _ _ _ split
      named 1 (Nat.succ_lt_succ room)
    with ⟨picked, other, variant, headers, field, blanks, spelled⟩
  refine ⟨other, variant, ?_⟩
  have takes : exactOf picked = some (webTrim header.value) := by
    rw [exactOf, spelled, blanks, field.2]
    rfl
  have silentSmall : ∀ other ∈ before.map small, exactOf other = none := by
    intro other member
    rcases List.mem_map.mp member with ⟨first, inBefore, rfl⟩
    rw [exactOf_of_blanks rfl]
    exact silent first inBefore
  rw [webKey, variant.requestLine, unnamed, headers,
    findSome?_of_silent silentSmall takes]
  rfl

theorem fixedUpgrade_of_asksWeb
    {request other : Request} (variant : Variant request other)
    (asks : asksWeb other.requestLine other.headers = true) :
    fixedUpgrade request = true ∨
      ∃ header ∈ request.headers, namesUpgrade header = true := by
  rw [asksWeb, variant.requestLine, Bool.or_eq_true, List.any_eq_true] at asks
  rcases asks with inLine | ⟨found, member, asksHere⟩
  · exact .inl (by rw [fixedUpgrade, inLine, Bool.true_or])
  · rcases exists_of_mem_right variant.headers member with
      ⟨header, inHeaders, field⟩
    rcases namesUpgrade_of_upgradeOf field asksHere with named | inValue
    · exact .inr ⟨header, inHeaders, named⟩
    · left
      rw [fixedUpgrade, Bool.or_eq_true, List.any_eq_true]
      exact .inr ⟨header, inHeaders, inValue⟩

theorem asksWeb_of_fixedUpgrade
    {request other : Request} (variant : Variant request other)
    (fixed : fixedUpgrade request = true) :
    asksWeb other.requestLine other.headers = true := by
  rw [fixedUpgrade, Bool.or_eq_true, List.any_eq_true] at fixed
  rw [asksWeb, variant.requestLine, Bool.or_eq_true, List.any_eq_true]
  rcases fixed with inLine | ⟨header, member, inValue⟩
  · exact .inl inLine
  · rcases exists_of_mem_left variant.headers member with
      ⟨found, inOthers, field⟩
    refine .inr ⟨found, inOthers, ?_⟩
    rw [upgradeOf, field.2, inValue, Bool.or_true]

/-- A header that asks for the upgrade can be spelled so that it does. -/
theorem exists_asksWeb
    {request : Request}
    (room : bareLength request.requestLine request.headers < 4095)
    {header : Header} (member : header ∈ request.headers)
    (named : namesUpgrade header = true) :
    ∃ other, Variant request other ∧
      asksWeb other.requestLine other.headers = true := by
  rw [namesUpgrade, Bool.and_eq_true] at named
  rcases List.append_of_mem member with ⟨before, after, split⟩
  rcases @exists_picked _ "Upgrade" _ (by decide) _ _ _ split named.1 1
      (Nat.succ_lt_succ room)
    with ⟨picked, other, variant, headers, field, blanks, spelled⟩
  refine ⟨other, variant, ?_⟩
  have asks : upgradeOf picked = true := by
    rw [upgradeOf, spelled, blanks, asksUpgrade, field.2, ← asksUpgrade,
      named.2]
    rfl
  rw [asksWeb, headers, List.any_append, List.any_cons, asks, Bool.true_or,
    Bool.or_true, Bool.or_true]

/-- `WebInterface` is steady where every variant gets the fixed decision. -/
theorem webSteady_iff (request : Request) :
    WebSteady request ↔
      ∀ other, Variant request other →
        webDecision other = fixedDecision request := by
  constructor
  · intro steady other variant
    by_cases room : bareLength request.requestLine request.headers < 4095
    · replace steady := steady room
      by_cases fixed : fixedUpgrade request = true
      · rw [if_pos fixed] at steady
        rw [webDecision, if_pos (asksWeb_of_fixedUpgrade variant fixed),
          fixedDecision, if_pos fixed]
        rcases webKey_of_variant variant with
          same | ⟨unnamed, header, reached, named, own⟩
        · rw [same]
        · rw [own, steady unnamed header reached named]
      · rw [if_neg fixed] at steady
        rw [fixedDecision, if_neg fixed, webDecision, if_neg]
        intro asks
        rcases fixedUpgrade_of_asksWeb variant asks with
          alsoFixed | ⟨header, member, named⟩
        · exact fixed alsoFixed
        · rw [steady header member] at named
          cases named
    · exact webDecision_of_blanks variant (blanks_of_full variant room)
  · intro same room
    split_ifs with fixed
    · intro unnamed header reached named
      rcases exists_webKey room unnamed reached named with
        ⟨other, variant, own⟩
      have decided := same other variant
      rw [webDecision, if_pos (asksWeb_of_fixedUpgrade variant fixed),
        fixedDecision, if_pos fixed, own] at decided
      exact Option.some.inj decided
    · intro header member
      rw [Bool.eq_false_iff]
      intro named
      rcases exists_asksWeb room member named with ⟨other, variant, asks⟩
      have decided := same other variant
      rw [webDecision, if_pos asks, fixedDecision, if_neg fixed] at decided
      cases decided

/-! ## Steady requests -/

theorem variant_refl (request : Request) : Variant request request where
  requestLine := rfl
  headers := List.forall₂_same.mpr fun _ _ => ⟨rfl, rfl⟩

/-- Without a mention in a value, a header with a key makes a difference. -/
theorem not_subSteady_of_named
    {request : Request}
    (silent :
      ∀ header ∈ request.headers, mentionsKey header.value = false)
    {header : Header} (member : header ∈ request.headers)
    (named : namesKey header = true) (key : trim header.value ≠ []) :
    ¬ SubSteady request := by
  intro steady
  have noFixed : request.headers.reverse.findSome? subFixed = none := by
    rw [List.findSome?_eq_none_iff]
    intro other inHeaders
    rw [subFixed, silent other (List.mem_reverse.mp inHeaders)]
    rfl
  have reached : header ∈ upTo subFixed request.headers.reverse := by
    rw [upTo_of_findSome?_none noFixed, List.mem_reverse]
    exact member
  have same := steady header reached named
  rw [subFixedKey, noFixed, Option.getD_none, answer, answer, if_neg key,
    if_pos rfl] at same
  cases same

/--
The servers answer every variant of a request alike exactly where both are
steady on it.
-/
theorem sameAnswers_variants_iff (request : Request) :
    (∀ other, Variant request other → SameAnswers request other) ↔
      SubSteady request ∧ WebSteady request := by
  rw [subSteady_iff, webSteady_iff]
  simp only [sameAnswers_iff]
  constructor
  · intro same
    rcases exists_small request with ⟨bare, bareVariant, headers⟩
    rcases same bare bareVariant with ⟨subBare, webBare⟩
    have subFixedSame :
        answer (subKey request.headers) = answer (subFixedKey request) := by
      rw [subBare, headers, subKey_small, subFixedKey]
    have webFixedSame : webDecision request = fixedDecision request := by
      rw [webBare]
      apply webDecision_of_blanks bareVariant
      rw [headers]
      intro header member
      rcases List.mem_map.mp member with ⟨first, _, rfl⟩
      rfl
    constructor
    · intro other variant
      rw [← (same other variant).1, subFixedSame]
    · intro other variant
      rw [← (same other variant).2, webFixedSame]
  · rintro ⟨subSame, webSame⟩ other variant
    have itself := variant_refl request
    exact
      ⟨(subSame request itself).trans (subSame other variant).symm,
        (webSame request itself).trans (webSame other variant).symm⟩

end AccelObserver.Server.UpgradeSteady
