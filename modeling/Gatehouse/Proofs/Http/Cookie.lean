import Gatehouse.Http.Cookie
import Gatehouse.Proofs.Session.Token
import Gatehouse.Proofs.Text.Utf8
import Mathlib

set_option autoImplicit false

/-!
# Cookies that come back

A client that is given a token presents it with its next request, and one that is told to forget its
token presents none.
-/

namespace Gatehouse

namespace Text

theorem trim_of_not_blank {cs : List Char} (h : ∀ c ∈ cs, isBlank c = false) : trim cs = cs := by
  have hdrop : ∀ ds : List Char, (∀ c ∈ ds, isBlank c = false) → ds.dropWhile isBlank = ds := by
    intro ds hds
    cases ds with
    | nil => rfl
    | cons d ds => rw [List.dropWhile_cons, hds d List.mem_cons_self, if_neg Bool.false_ne_true]
  have hreverse : ∀ c ∈ cs.reverse, isBlank c = false := fun c hc => h c (List.mem_reverse.1 hc)
  rw [trim, hdrop cs h, hdrop cs.reverse hreverse, List.reverse_reverse]

theorem percentDecode_of_plain {bytes : List UInt8} (h : 0x25 ∉ bytes) :
    percentDecode bytes = bytes := by
  induction bytes with
  | nil => rfl
  | cons b rest ih =>
    have hb : b ≠ 0x25 := fun he => h (he ▸ List.mem_cons_self)
    have hrest := ih fun he => h (List.mem_cons_of_mem _ he)
    rw [percentDecode, hrest]
    intro high low rest' he
    exact absurd he hb

theorem splitFirst?_append_cons {separator : Char} {before after : List Char}
    (h : separator ∉ before) :
    splitFirst? separator (before ++ separator :: after) = some (before, after) := by
  have hkept : ∀ c ∈ before, (decide (c ≠ separator)) = true := by
    intro c hc
    exact decide_eq_true fun he => h (he ▸ hc)
  have hdrop : (before ++ separator :: after).dropWhile (· ≠ separator) = separator :: after := by
    rw [List.dropWhile_append_of_pos hkept]
    simp
  have htake : (before ++ separator :: after).takeWhile (· ≠ separator) = before := by
    rw [List.takeWhile_append_of_pos hkept]
    simp
  rw [splitFirst?, hdrop, htake]

theorem mem_percentEncode {kept : UInt8 → Bool} {bytes : List UInt8} {c : Char}
    (h : c ∈ percentEncode kept bytes) :
    (∃ b, kept b = true ∧ c = Char.ofNat b.toNat) ∨ c = '%' ∨
      ∃ d : Fin 16, c = (Nat.digitChar d.val).toUpper := by
  obtain ⟨b, -, hc⟩ := List.mem_flatMap.1 h
  by_cases hb : kept b = true
  · rw [if_pos hb, List.mem_singleton] at hc
    exact .inl ⟨b, hb, hc⟩
  · rw [if_neg hb, escapeByte, List.mem_cons] at hc
    rcases hc with hc | hc
    · exact .inr (.inl hc)
    · obtain ⟨digit, hdigit, rfl⟩ := List.mem_map.1 hc
      obtain ⟨d, rfl⟩ := SessionToken.hexDigit_of_mem_hexDigits hdigit
      exact .inr (.inr ⟨d, rfl⟩)

end Text

namespace Cookie

theorem toNat_ofNat_toNat (b : UInt8) : (Char.ofNat b.toNat).toNat = b.toNat := by
  have hvalid : b.toNat.isValidChar := .inl (by have := b.toNat_lt; omega)
  rw [Char.ofNat, dif_pos hvalid]
  rfl

theorem not_mem_encodeName {name : String} {c : Char} (hbyte : isNameByte c.toNat.toUInt8 = false)
    (hescape : c ≠ '%') (hdigit : ∀ d : Fin 16, c ≠ (Nat.digitChar d.val).toUpper) :
    c ∉ (encodeName name).toList := by
  intro hc
  rw [encodeName, String.toList_ofList] at hc
  rcases Text.mem_percentEncode hc with ⟨b, hb, rfl⟩ | he | ⟨d, hd⟩
  · have hcode : (Char.ofNat b.toNat).toNat.toUInt8 = b := by
      rw [toNat_ofNat_toNat]
      exact UInt8.ofNat_toNat
    rw [hcode, hb] at hbyte
    cases hbyte
  · exact hescape he
  · exact hdigit d hd

theorem semicolon_not_mem_encodeName (name : String) : ';' ∉ (encodeName name).toList :=
  not_mem_encodeName (by cbv) (by decide) (by decide)

theorem equals_not_mem_encodeName (name : String) : '=' ∉ (encodeName name).toList :=
  not_mem_encodeName (by cbv) (by decide) (by decide)

/-- A character that stands for itself in a cookie. -/
def isShown (c : Char) : Bool :=
  0x21 ≤ c.toNat && c.toNat ≤ 0x7E && c != '%' && c != ';'

theorem isShown_iff {c : Char} :
    isShown c = true ↔ (0x21 ≤ c.toNat ∧ c.toNat ≤ 0x7E) ∧ c ≠ '%' ∧ c ≠ ';' := by
  simp [isShown, and_assoc]

theorem isBlank_of_shown {c : Char} (h : isShown c = true) : Text.isBlank c = false := by
  have hrange := (isShown_iff.1 h).1
  simp only [Text.isBlank, Bool.or_eq_false_iff, Bool.and_eq_false_iff, decide_eq_false_iff_not,
    beq_eq_false_iff_ne]
  omega

theorem trim_of_shown {text : String} (h : text.toList.all isShown = true) :
    Text.trim text.toList = text.toList :=
  Text.trim_of_not_blank fun c hc => isBlank_of_shown (List.all_eq_true.1 h c hc)

theorem decode?_of_shown {text : String} (h : text.toList.all isShown = true) :
    decode? text.toList = some text := by
  have hshown : ∀ c ∈ text.toList, (0x21 ≤ c.toNat ∧ c.toNat ≤ 0x7E) ∧ c ≠ '%' ∧ c ≠ ';' :=
    fun c hc => isShown_iff.1 (List.all_eq_true.1 h c hc)
  have hshort : ∀ c ∈ text.toList, c.toNat < 0x80 := fun c hc => by
    have hrange := (hshown c hc).1
    omega
  have hescape : 0x25 ∉ Text.utf8 text.toList := by
    rw [Text.utf8_of_short hshort, List.mem_map]
    rintro ⟨c, hc, hbyte⟩
    have hcode := congrArg UInt8.toNat hbyte
    rw [Text.toNat_toUInt8_of_short (Nat.lt_trans (hshort c hc) (by decide))] at hcode
    exact (hshown c hc).2.1 (Char.toNat_inj.1 hcode)
  rw [decode?, trim_of_shown h, Text.percentDecode_of_plain hescape, Text.ofUtf8?_utf8]

/-- The one cookie of a request is read as it is shown. -/
theorem value?_of_shown {name value : String} {request : Request} (hne : name ≠ "")
    (hequals : '=' ∉ name.toList) (hname : name.toList.all isShown = true)
    (hvalue : value.toList.all isShown = true)
    (hcookies : request.valuesOf "cookie" = [name ++ "=" ++ value]) :
    value? name request = some value := by
  have hlist : (name ++ "=" ++ value).toList = name.toList ++ '=' :: value.toList := by
    simp
  have hall : (name ++ "=" ++ value).toList.all isShown = true := by
    rw [hlist, List.all_append, List.all_cons, hname, hvalue]
    rfl
  have hshown : ∀ c ∈ (name ++ "=" ++ value).toList,
      (0x21 ≤ c.toNat ∧ c.toNat ≤ 0x7E) ∧ c ≠ '%' ∧ c ≠ ';' :=
    fun c hc => isShown_iff.1 (List.all_eq_true.1 hall c hc)
  have hplain : Header.isPlain (name ++ "=" ++ value) = true := by
    rw [Header.isPlain, String.all_bool_eq, List.all_eq_true]
    intro c hc
    have hrange := (hshown c hc).1
    simp [Nat.le_trans (by decide : 0x20 ≤ 0x21) hrange.1, hrange.2]
  have hsemicolon : ';' ∉ (name ++ "=" ++ value).toList := fun hc => (hshown _ hc).2.2 rfl
  have hpiece : ofPiece? (name ++ "=" ++ value).toList = some (name, value) := by
    have hnil : (Text.trim name.toList).isEmpty = false := by
      rw [trim_of_shown hname]
      simpa using hne
    rw [ofPiece?, hlist, Text.splitFirst?_append_cons hequals]
    simp only [Option.bind_eq_bind, Option.bind_some, hnil, decode?_of_shown hname,
      decode?_of_shown hvalue]
    rfl
  rw [value?, hcookies, List.flatMap_singleton, ofHeader, if_pos hplain,
    Text.splitOn_of_not_mem _ _ hsemicolon, List.filterMap_cons_some hpiece, List.filterMap_nil,
    List.reverse_singleton, List.lookup_cons_self]

theorem all_isShown_toString (token : SessionToken) :
    (toString token).toList.all isShown = true :=
  List.all_eq_true.2 (token.char_of_mem_toString (by decide) (by decide))

theorem decode?_toString (token : SessionToken) :
    decode? (toString token).toList = some (toString token) :=
  decode?_of_shown (all_isShown_toString token)

end Cookie

namespace SessionCookie

/-- What a client presents after one `Set-Cookie` line, as a server reads it. The line concerns the
cookie if it begins with its name. -/
def heldAfterLine (cookie : SessionCookie) (held : Option String) (line : String) :
    Option String :=
  match Text.splitOn ';' line.toList with
  | [] => held
  | pair :: parts =>
    match Text.splitFirst? '=' pair with
    | none => held
    | some (name, value) =>
      if name ≠ (Cookie.encodeName cookie.name).toList then held
      else if parts.any fun part => Text.trim part = "Max-Age=0".toList then none
      else Cookie.decode? value

/-- What a client presents after the `Set-Cookie` lines of a response. -/
def heldAfter (cookie : SessionCookie) (held : Option String) (lines : List String) :
    Option String :=
  lines.foldl cookie.heldAfterLine held

theorem heldAfterLine_of_line {cookie : SessionCookie} {held : Option String} {line : String}
    {value rest : List Char} (hvalue : ';' ∉ value)
    (hline : line.toList =
      (Cookie.encodeName cookie.name).toList ++ '=' :: value ++ ';' :: rest) :
    cookie.heldAfterLine held line =
      if (Text.splitOn ';' rest).any fun part => Text.trim part = "Max-Age=0".toList then
        none
      else Cookie.decode? value := by
  have hname := Cookie.semicolon_not_mem_encodeName cookie.name
  have hpair : ';' ∉ (Cookie.encodeName cookie.name).toList ++ '=' :: value := by
    simp only [List.mem_append, List.mem_cons, not_or]
    exact ⟨hname, by decide, hvalue⟩
  have hsplit : Text.splitFirst? '=' ((Cookie.encodeName cookie.name).toList ++ '=' :: value) =
      some ((Cookie.encodeName cookie.name).toList, value) :=
    Text.splitFirst?_append_cons (Cookie.equals_not_mem_encodeName cookie.name)
  simp only [heldAfterLine, hline, Text.splitOn_append_cons _ _ _ hpair, hsplit, ne_eq,
    not_true_eq_false, if_false]

theorem heldAfter_issue (cookie : SessionCookie) (held : Option String) (token : SessionToken) :
    cookie.heldAfter held [cookie.issue token] = some (toString token) := by
  have hvalue : ∀ c ∈ (toString token).toList, c ≠ ';' :=
    token.char_of_mem_toString (by decide) (by decide)
  have hline : (cookie.issue token).toList =
      (Cookie.encodeName cookie.name).toList ++ '=' :: (toString token).toList ++
        ';' :: (" HttpOnly; SameSite=Lax" ++ (if cookie.secure then "; Secure" else "") ++
          "; Path=/").toList := by
    simp [issue]
  rw [heldAfter, List.foldl_cons, List.foldl_nil,
    heldAfterLine_of_line (fun hc => hvalue _ hc rfl) hline, Cookie.decode?_toString]
  cases cookie.secure with
  | false => rfl
  | true => rfl

theorem heldAfter_expire (cookie : SessionCookie) (held : Option String) :
    cookie.heldAfter held [cookie.expire] = none := by
  have hline : cookie.expire.toList =
      (Cookie.encodeName cookie.name).toList ++ '=' :: [] ++
        ';' :: " Path=/; Max-Age=0; Expires=Thu, 01 Jan 1970 00:00:00 GMT".toList := by
    simp [expire]
  rw [heldAfter, List.foldl_cons, List.foldl_nil, heldAfterLine_of_line (by simp) hline]
  rfl

theorem issue_inj {cookie : SessionCookie} {a b : SessionToken}
    (h : cookie.issue a = cookie.issue b) : a = b := by
  have hheld := cookie.heldAfter_issue none a
  rw [h, heldAfter_issue] at hheld
  exact (SessionToken.toString_inj (Option.some.inj hheld)).symm

theorem issue_ne_expire {cookie : SessionCookie} {token : SessionToken} :
    cookie.issue token ≠ cookie.expire := by
  intro h
  have hheld := cookie.heldAfter_issue none token
  rw [h, heldAfter_expire] at hheld
  cases hheld

def sample : SessionCookie := ⟨"s", false⟩

def sampleHeader : Header := ⟨"cookie", "s=00000000000000000000000000000001"⟩

theorem token?_sample {request : Request}
    (h : request.valuesOf "cookie" = [sampleHeader.value]) :
    sample.token? request = some ⟨1⟩ := by
  have hvalue : Cookie.value? sample.name request = some "00000000000000000000000000000001" :=
    Cookie.value?_of_shown (by decide) (by decide) (by decide) (by decide) h
  rw [token?, hvalue, Option.bind_some]
  cbv

theorem token?_of_no_cookies {cookie : SessionCookie} {request : Request}
    (h : request.valuesOf "cookie" = []) : cookie.token? request = none := by
  rw [token?, Cookie.value?, h]
  rfl

end SessionCookie

end Gatehouse
