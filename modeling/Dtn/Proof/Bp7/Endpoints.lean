import Mathlib.Data.List.TakeWhile
import Dtn.Proof.Bp7.RoundTrip

/-!
# Endpoints as text, and the nodes they belong to

A `dtn` endpoint is read back from its text (`new_display_dtn`), but the null
endpoint is refused, and the decoder of `ipn` endpoints looks for the scheme
that `Endpoint.new` has already taken off, so it refuses every text that is the
text of an endpoint (`new_display_ipn`). `new_display_iff` puts these together.

The name of a node is looked for behind the first two bytes of a name, whatever
these are. `behindTwoBytes` says where that is possible, and `matchedSafely_iff`
when endpoints can be compared. Where a name starts with `//`, matching is having
the same node (`Named.matchesNode`).
-/

namespace Dtn.Bp7

open List Option Endpoint String

variable {c : Char} {s : String} {e : DTNEndpoint}

/-! ## Endpoints as text -/

lemma splitOnce_eq_none (h : c ∉ s.toList) : splitOnce c s = none := by
  cases hs : splitOnce c s with
  | none => rfl
  | some => grind [splitOnce_eq_some]

lemma splitOnce_append (h : c ∉ a.toList) (sep b : String) (hsep : sep.toList = [c]) :
    splitOnce c (a ++ sep ++ b) = some (a, b) :=
  splitOnce_eq_some.mpr ⟨by simp [hsep], h⟩

lemma splitOnce_ipn (b : String) : splitOnce ':' ("ipn" ++ ":" ++ b) = some ("ipn", b) :=
  splitOnce_append (by decide) ":" b rfl

lemma new_of_splitOnce (h : splitOnce ':' uri = some (schema, content)) :
    new uri =
      if schema = "dtn" then (DTNEndpoint.fromStr content).map .dtn
      else if schema = "ipn" then (IPNEndpoint.fromStr content).map .ipn
      else none := by simp_all [map_eq_bind, new]

lemma new_display_dtn (uri : String) : new (dtn ⟨uri⟩).display = (DTNEndpoint.fromStr uri).map .dtn :=
  new_of_splitOnce (splitOnce_append (a := "dtn") (by decide) ":" uri rfl)

lemma toList_toString (n : UInt64) : (toString n).toList = Nat.toDigits 10 n.toNat := by
  rw [show toString n = toString n.toNat from rfl, Nat.toString_eq_repr, Nat.toList_repr]

lemma isDigit_of_mem_toString {n : UInt64} (h : c ∈ (toString n).toList) : c.isDigit = true := by
  rw [toList_toString] at h
  exact Nat.isDigit_of_mem_toDigits (by decide) (by decide) h

lemma mem_ipn_numbers {e : IPNEndpoint} (h : c ∈ (toString e.node ++ "." ++ toString e.service).toList) :
    c.isDigit = true ∨ c = '.' := by
  simp only [toList_append, mem_append] at h
  obtain (h | h) | h := h
  · exact .inl (isDigit_of_mem_toString h)
  · exact .inr (mem_singleton.mp h)
  · exact .inl (isDigit_of_mem_toString h)

lemma display_ipn (e : IPNEndpoint) :
    (ipn e).display = "ipn" ++ ":" ++ (toString e.node ++ "." ++ toString e.service) := by
  simp only [display, ← String.append_assoc]
  rfl

/-- There is no second scheme in the text of an endpoint. -/
lemma new_display_ipn (e : IPNEndpoint) : new (ipn e).display = none := by
  have hcolon : ':' ∉ (toString e.node ++ "." ++ toString e.service).toList := fun h => by
    rcases mem_ipn_numbers h with h | h <;> revert h <;> decide
  have hnone : IPNEndpoint.fromStr (toString e.node ++ "." ++ toString e.service) = none := by
    rw [IPNEndpoint.fromStr, splitOnce_eq_none hcolon]
    rfl
  rw [display_ipn, new_of_splitOnce (splitOnce_ipn _), if_neg (by decide), if_pos rfl, hnone]
  rfl

/-- The digits of a number, without a plus sign and leading zeros. -/
def significant (s : String) : List Char :=
  (match s.toList with
    | '+' :: cs => cs
    | cs => cs).dropWhile (· = '0')

/-- The same text, up to plus signs and leading zeros in the numbers of an `ipn` endpoint. -/
def SameText (s t : String) : Prop :=
  s = t ∨ ∃ n m n' m', s = "ipn:" ++ n ++ "." ++ m ∧ t = "ipn:" ++ n' ++ "." ++ m' ∧
    significant n = significant n' ∧ significant m = significant m'

lemma mem_of_mem_significant (h : c ∈ significant s) : c ∈ s.toList := by
  have hc := dropWhile_subset _ h
  split at hc
  · rename_i cs hs
    rw [hs]
    exact mem_cons_of_mem _ hc
  · exact hc

lemma mem_significant_of_letter (hs : s.toList = c :: cs) (hplus : c ≠ '+')
    (hzero : c ≠ '0') : c ∈ significant s := by grind [dropWhile_cons_of_neg, significant]

/-- A text with the scheme twice is no text of an endpoint. -/
lemma not_sameText_ipn (e : IPNEndpoint) (rest : String) : ¬ SameText (ipn e).display ("ipn:ipn:" ++ rest) := by
  -- Behind the scheme one text has an `i` and the other one digits and a dot.
  have hnot : 'i' ∉ (toString e.node ++ "." ++ toString e.service).toList := fun h => by
    rcases mem_ipn_numbers h with h | h <;> revert h <;> decide
  have hsame {t} (h : ("ipn" ++ ":" ++ (toString e.node ++ "." ++ toString e.service)) = "ipn:" ++ t) :
      toString e.node ++ "." ++ toString e.service = t := (append_right_inj "ipn:").mp h
  have htwice : "ipn:ipn:" ++ rest = "ipn:" ++ ("ipn:" ++ rest) := by
    rw [← String.append_assoc]
    rfl
  have hmem : 'i' ∈ ("ipn:" ++ rest).toList := by simp
  rw [display_ipn, htwice]
  rintro (h | ⟨n, m, n', m', hn, hn', hsig, -⟩)
  · exact hnot (hsame h ▸ hmem)
  · have hassoc (n m : String) : "ipn:" ++ n ++ "." ++ m = "ipn:" ++ (n ++ ("." ++ m)) := by
      rw [String.append_assoc, String.append_assoc]
    have hn := hsame (hn.trans (hassoc n m))
    have hn' : "ipn:" ++ rest = n' ++ ("." ++ m') := (append_right_inj "ipn:").mp (hn'.trans (hassoc n' m'))
    have hhead : ∃ cs, n'.toList = 'i' :: cs := by
      have hlist := congrArg String.toList hn'
      simp only [toList_append, show "ipn:".toList = ['i', 'p', 'n', ':'] from rfl,
        show ".".toList = ['.'] from rfl, cons_append] at hlist
      cases hcs : n'.toList with
      | nil => rw [hcs] at hlist; exact absurd (List.cons.inj hlist).1 (by decide)
      | cons _ cs => rw [hcs] at hlist; exact ⟨cs, by rw [(List.cons.inj hlist).1]⟩
    obtain ⟨_, hcs⟩ := hhead
    have hi : 'i' ∈ n.toList :=
      mem_of_mem_significant (hsig ▸ mem_significant_of_letter hcs (by decide) (by decide))
    rw [hn, toList_append] at hnot
    exact hnot (mem_append_left _ hi)

lemma eq_append_of_splitOnce (h : splitOnce c s = some (a, b)) : s = a ++ singleton c ++ b := by
  refine toList_inj.mp ?_
  rw [(splitOnce_eq_some.mp h).1]
  simp

lemma append_of_prefix (h : sep.toList.isPrefixOf s.toList = true) : ∃ name, s = sep ++ name := by
  obtain ⟨cs, hcs⟩ := isPrefixOf_iff_prefix.mp h
  exact ⟨ofList cs, toList_inj.mp (by simp [← hcs])⟩

/-- What `Endpoint.new` accepts: a `dtn` name, or an `ipn` endpoint with its scheme twice. -/
lemma new_eq_some_iff {e : Endpoint} : new s = some e ↔
    (∃ name, s = "dtn://" ++ name ∧ e = .dtn ⟨"//" ++ name⟩) ∨
      ∃ node service n m, s = "ipn:ipn:" ++ (node ++ "." ++ service) ∧ '.' ∉ node.toList ∧
        parseU64 node = some n ∧ parseU64 service = some m ∧ e = .ipn ⟨n, m⟩ := by
  constructor
  · intro h
    obtain ⟨⟨_, _⟩, hsplit, -⟩ := bind_eq_some_iff.mp h
    have hs := eq_append_of_splitOnce hsplit
    rw [new_of_splitOnce hsplit] at h
    split at h
    · rename_i hdtn
      subst hdtn
      obtain ⟨d, hd, rfl⟩ := map_eq_some_iff.mp h
      rw [DTNEndpoint.fromStr] at hd
      split at hd <;> cases hd
      rename_i hname
      obtain ⟨name, rfl⟩ := append_of_prefix hname
      exact .inl ⟨name, by rw [hs, ← String.append_assoc]; rfl, rfl⟩
    split at h
    · rename_i hipn
      subst hipn
      obtain ⟨_, hd, rfl⟩ := map_eq_some_iff.mp h
      obtain ⟨⟨_, _⟩, hsplit', hd⟩ := bind_eq_some_iff.mp hd
      dsimp only at hd
      split at hd
      · cases hd
      rename_i hschema
      obtain rfl := Decidable.not_not.mp hschema
      obtain ⟨⟨node, service⟩, hdot, hd⟩ := bind_eq_some_iff.mp hd
      obtain ⟨n, hn, hd⟩ := bind_eq_some_iff.mp hd
      obtain ⟨m, hm, hd⟩ := bind_eq_some_iff.mp hd
      cases hd
      refine .inr ⟨node, service, n, m, ?_, (splitOnce_eq_some.mp hdot).2, hn, hm, rfl⟩
      rw [hs, eq_append_of_splitOnce hsplit', eq_append_of_splitOnce hdot, ← String.append_assoc]
      rfl
    · cases h
  · rintro (⟨name, rfl, rfl⟩ | ⟨node, service, n, m, rfl, hdot, hn, hm, rfl⟩)
    · have hdtn := new_display_dtn ("//" ++ name)
      rw [display, ← String.append_assoc, DTNEndpoint.fromStr, if_pos] at hdtn
      · exact hdtn
      · simp
    · have htwice : "ipn:ipn:" ++ (node ++ "." ++ service) = "ipn" ++ ":" ++
    ("ipn" ++ ":" ++ (node ++ "." ++ service)) := by
        simp only [← String.append_assoc]
        rfl
      have hfrom : IPNEndpoint.fromStr ("ipn" ++ ":" ++ (node ++ "." ++ service)) = some ⟨n, m⟩ := by
        rw [IPNEndpoint.fromStr, splitOnce_ipn]
        simp [splitOnce_append hdot "." service rfl, hn, hm]
      rw [htwice, new_of_splitOnce (splitOnce_ipn _), hfrom]
      rfl

/-- A valid endpoint is read back from its text exactly if it is a `dtn` endpoint other than the null
endpoint, and what is read from a text has this text exactly if it is that of a `dtn` endpoint. -/
theorem new_display_iff (e : Endpoint) (s : String) :
    (e.validate = true → (new e.display = some e ↔ ∃ uri, e = .dtn ⟨uri⟩ ∧ uri ≠ "none")) ∧
    (new s = some e → (SameText e.display s ↔ "dtn:".toList.isPrefixOf s.toList = true)) := by
  constructor
  · intro hvalid
    cases e with
    | ipn =>
      rw [new_display_ipn]
      simp
    | dtn d =>
      obtain ⟨uri⟩ := d
      rw [new_display_dtn, DTNEndpoint.fromStr]
      by_cases hnone : uri = "none"
      · subst hnone
        simp
      · grind [validate, DTNEndpoint.validate]
  · intro h
    rcases new_eq_some_iff.mp h with ⟨name, rfl, rfl⟩ | ⟨node, service, n, m, rfl, -, -, -, rfl⟩
    · have hstart : "dtn:".toList.isPrefixOf ("dtn://" ++ name).toList = true := by
        rw [toList_append]
        rfl
      exact ⟨fun _ => hstart, fun _ => .inl (by rw [display, ← String.append_assoc]; rfl)⟩
    · simp [not_sameText_ipn]

theorem new_display_iff_node :
    new (dtn ⟨"//node/in"⟩).display = some (.dtn ⟨"//node/in"⟩) ∧
      SameText (dtn ⟨"//node/in"⟩).display "dtn://node/in" :=
  (new_display_iff (.dtn ⟨"//node/in"⟩) "dtn://node/in").imp (fun h => (h (by decide)).mpr ⟨_, rfl, by decide⟩)
    fun h => (h (by decide)).mpr (by decide)

/-- Of the null endpoint and an `ipn` endpoint the text is refused, and with its scheme twice the latter is accepted. -/
theorem new_display_lost :
    (dtn ⟨"none"⟩).validate = true ∧ new (dtn ⟨"none"⟩).display = none ∧
      new (ipn ⟨1, 2⟩).display = none ∧
      new "ipn:ipn:1.2" = some (.ipn ⟨1, 2⟩) ∧ ¬ SameText (ipn ⟨1, 2⟩).display "ipn:ipn:1.2" :=
  ⟨by decide, by decide, by decide, by decide, not_sameText_ipn ⟨1, 2⟩ "1.2"⟩

/-! ## Nodes -/

variable {ε : Type}

/-- What stands behind the first two bytes, if a character ends with them. -/
def behindTwoBytes : List Char → Option (List Char)
  | [] => none
  | c :: cs =>
    if c.utf8Size = 2 then some cs
    else if c.utf8Size = 1 then
      match cs with
      | [] => none
      | d :: ds => if d.utf8Size = 1 then some ds else none
    else none

lemma sliceFrom_two (cs : List Char) :
    (sliceFrom 2 cs : Outcome ε (List Char)) = (behindTwoBytes cs).elim .panic .ok := by
  cases cs with
  | nil => rfl
  | cons c cs =>
    have hpos := c.utf8Size_pos
    by_cases h2 : c.utf8Size = 2
    · simp [sliceFrom, behindTwoBytes, h2]
    · by_cases h1 : c.utf8Size = 1
      · cases cs with
        | nil => simp [sliceFrom, behindTwoBytes, h1]
        | cons d =>
          have hpos := d.utf8Size_pos
          by_cases hd : d.utf8Size = 1
          · simp [sliceFrom, behindTwoBytes, h1, hd]
          · have hd' : ¬ d.utf8Size ≤ 1 := by omega
            simp [sliceFrom, behindTwoBytes, h1, hd, hd']
      · have h3 : ¬ c.utf8Size ≤ 2 := by omega
        simp [sliceFrom, behindTwoBytes, h1, h2, h3]

/-- The name that an endpoint has behind its first two bytes. -/
def DTNEndpoint.behindName (e : DTNEndpoint) : Option String :=
  (behindTwoBytes e.uri.toList).map fun cs => ofList (cs.takeWhile (· ≠ '/'))

lemma DTNEndpoint.nodeName_eq (e : DTNEndpoint) : (e.nodeName : Outcome ε String) = e.behindName.elim .panic .ok := by
  rw [nodeName, sliceFrom_two, behindName]
  cases behindTwoBytes e.uri.toList <;> rfl

lemma DTNEndpoint.matchesNode_eq (e other : DTNEndpoint) :
    (e.matchesNode other : Outcome ε Bool) =
      match e.behindName, other.behindName with
      | some name, some otherName => .ok (name == otherName)
      | _, _ => .panic := by
  rw [matchesNode, nodeName_eq, nodeName_eq]
  cases e.behindName <;> cases other.behindName <;> rfl

/-- A character ends with the second byte of a `dtn` name. -/
def Endpoint.Sliceable : Endpoint → Prop
  | dtn e => (behindTwoBytes e.uri.toList).isSome = true
  | ipn _ => True

/-- An endpoint of the `dtn` scheme that has the name `ne` behind two bytes, as `none` has. -/
def Endpoint.NamedNe : Endpoint → Prop
  | dtn e => (behindTwoBytes e.uri.toList).map (fun cs => cs.takeWhile (· ≠ '/')) = some ['n', 'e']
  | ipn _ => False

def Endpoint.isDtn : Endpoint → Bool
  | dtn _ => true
  | ipn _ => false

/-- The node of an endpoint is known and can be compared with that of another one, and the null endpoint
has no node in common with others. -/
structure MatchedSafely (e other : Endpoint) : Prop where
  nodeName : ∀ d, e = .dtn d → (d.nodeName : Outcome Empty String) ≠ .panic
  getNodeEndpoint : (e.getNodeEndpoint : Outcome Empty Endpoint) ≠ .panic
  matchesNode : (e.matchesNode other : Outcome Empty Bool) ≠ .panic
  matchedBy : (other.matchesNode e : Outcome Empty Bool) ≠ .panic
  null : e.isNullEndpoint = true → e.matchesNode other = (.ok true : Outcome Empty Bool) → other = e
  nullBy : e.isNullEndpoint = true → other.matchesNode e = (.ok true : Outcome Empty Bool) → other = e

lemma DTNEndpoint.behindName_isSome (e : DTNEndpoint) :
    e.behindName.isSome = (behindTwoBytes e.uri.toList).isSome := isSome_map

lemma DTNEndpoint.exists_behindName (h : (dtn e).Sliceable) : ∃ name, e.behindName = some name :=
  isSome_iff_exists.mp (e.behindName_isSome.trans h)

lemma DTNEndpoint.sliceable_of_nodeName (h : (e.nodeName : Outcome Empty String) ≠ .panic) : (dtn e).Sliceable := by
  rw [nodeName_eq] at h
  cases hname : e.behindName with
  | none => rw [hname] at h; exact absurd rfl h
  | some => rw [Endpoint.Sliceable, ← behindName_isSome, hname]; rfl

lemma Endpoint.namedNe_iff (e : DTNEndpoint) : (dtn e).NamedNe ↔ e.behindName = some "ne" := by
  rw [NamedNe, DTNEndpoint.behindName]
  cases behindTwoBytes e.uri.toList with
  | none => simp
  | some =>
    simp only [map_some, Option.some.injEq]
    constructor
    · intro h
      rw [h]
    · intro h
      have := congrArg String.toList h
      rwa [toList_ofList] at this

lemma behindName_null (h : e.isNullEndpoint = true) : e.behindName = some "ne" := by
  obtain ⟨uri⟩ := e
  obtain rfl : uri = "none" := by simpa [DTNEndpoint.isNullEndpoint] using h
  decide

/-- Two `dtn` endpoints whose names are known match if these are the same. -/
lemma DTNEndpoint.matchesNode_of_names (h : e.behindName = some name)
    (h' : other.behindName = some name') : (e.matchesNode other : Outcome ε Bool) = .ok (name == name') := by
  rw [matchesNode_eq, h, h']

/-- Endpoints can be compared exactly if a character ends with the second byte of the name, and of the name it is
compared with; and the null endpoint is taken for the node of every endpoint that has `ne` behind two bytes. -/
theorem matchedSafely_iff (e other : Endpoint) :
    MatchedSafely e other ↔
      e.Sliceable ∧ (e.isDtn = true → other.isDtn = true → other.Sliceable) ∧
        (e.isNullEndpoint = true → other ≠ e → ¬ other.NamedNe) := by
  cases e with
  | ipn =>
    refine ⟨fun _ => ⟨trivial, by rintro ⟨⟩, by rintro ⟨⟩⟩, fun _ => ⟨by rintro _ ⟨⟩, by rintro ⟨⟩, ?_, ?_,
      by rintro ⟨⟩, by rintro ⟨⟩⟩⟩
    all_goals cases other <;> rintro ⟨⟩
  | dtn e =>
    constructor
    · intro h
      have he : (dtn e).Sliceable := DTNEndpoint.sliceable_of_nodeName (h.nodeName e rfl)
      obtain ⟨name, hname⟩ := DTNEndpoint.exists_behindName he
      refine ⟨he, fun _ hdtn => ?_, fun hnull hne hnamed => ?_⟩
      · cases other with
        | ipn => cases hdtn
        | dtn =>
          grind [h.matchedBy, DTNEndpoint.matchesNode_eq, DTNEndpoint.behindName_isSome,
              matchesNode, Endpoint.Sliceable]
      · cases other with
        | ipn => exact hnamed
        | dtn other =>
          refine hne (h.null hnull ?_)
          exact DTNEndpoint.matchesNode_of_names (behindName_null hnull) ((namedNe_iff other).mp hnamed)
    · rintro ⟨he, hother, hnull⟩
      obtain ⟨name, hname⟩ := DTNEndpoint.exists_behindName he
      have hnode : (e.nodeName : Outcome Empty String) = .ok name := by rw [DTNEndpoint.nodeName_eq, hname]; rfl
      have hget : ((dtn e).getNodeEndpoint : Outcome Empty Endpoint) ≠ .panic := by
        rw [getNodeEndpoint, DTNEndpoint.getNodeEndpoint, hnode]
        rintro ⟨⟩
      have hnodeName : ∀ d, dtn e = .dtn d → (d.nodeName : Outcome Empty String) ≠ .panic := by
        rintro d ⟨⟩
        rw [hnode]
        rintro ⟨⟩
      cases other with
      | ipn => exact ⟨hnodeName, hget, by rintro ⟨⟩, by rintro ⟨⟩, fun _ => by rintro ⟨⟩, fun _ => by rintro ⟨⟩⟩
      | dtn other =>
        obtain ⟨name', hname'⟩ := DTNEndpoint.exists_behindName (hother rfl rfl)
        have h1 : ((dtn e).matchesNode (.dtn other) : Outcome Empty Bool) = .ok (name == name') :=
          DTNEndpoint.matchesNode_of_names hname hname'
        have h2 : ((dtn other).matchesNode (.dtn e) : Outcome Empty Bool) = .ok (name' == name) :=
          DTNEndpoint.matchesNode_of_names hname' hname
        -- An endpoint with the name of the null endpoint is the null endpoint itself.
        have hsame (hn : e.isNullEndpoint = true) (heq : name' = name) : dtn other = .dtn e := by
          have hne : other.behindName = some "ne" := by
            rw [hname', heq, ← hname, behindName_null hn]
          exact Decidable.byContradiction fun h => hnull hn h ((namedNe_iff other).mpr hne)
        refine ⟨hnodeName, hget, by rw [h1]; rintro ⟨⟩, by rw [h2]; rintro ⟨⟩, fun hn hm => ?_, fun hn hm => ?_⟩
        · rw [h1, Outcome.ok.injEq, beq_iff_eq] at hm
          exact hsame hn hm.symm
        · rw [h2, Outcome.ok.injEq, beq_iff_eq] at hm
          exact hsame hn hm

/-- A bundle from the endpoint `source`, as it comes over the wire. -/
def bundleFrom (source : Endpoint) : Bundle :=
  { sampleBundle with primaryBlock := { sampleBundle.primaryBlock with sourceNode := source } }

/-- The decoder accepts bundles from an endpoint with an empty name and from the null endpoint. Looking for
the node of the first one panics, and the other one is taken for the node `ne`. -/
theorem matched_unsafely :
    ((bundleFrom (.dtn ⟨""⟩)).toVec >>= Bundle.tryFrom .plain) = .ok (bundleFrom (.dtn ⟨""⟩)) ∧
      ((bundleFrom (.dtn ⟨"none"⟩)).toVec >>= Bundle.tryFrom .plain) = .ok (bundleFrom (.dtn ⟨"none"⟩)) ∧
      ((dtn ⟨""⟩).matchesNode (.dtn ⟨"//node"⟩) : Outcome Empty Bool) = .panic ∧
      ((dtn ⟨"none"⟩).matchesNode (.dtn ⟨"//ne"⟩) : Outcome Empty Bool) = .ok true := by
  refine ⟨?_, ?_, ?_, ?_⟩ <;> decide +kernel

/-! ## Nodes as representatives -/

namespace Endpoint

/-- An `ipn` endpoint, or a `dtn` endpoint whose name starts as the name of a node does. -/
def Named : Endpoint → Prop
  | dtn e => "//".toList.isPrefixOf e.uri.toList = true
  | ipn _ => True

/-- The endpoint of the node, where there is one. -/
def node : Endpoint → Endpoint
  | dtn e => dtn ⟨"//" ++ e.behindName.getD ""⟩
  | ipn e => ipn e.getNodeEndpoint

variable {a b : Endpoint}

lemma behindName_slashes (name : String) :
    (⟨"//" ++ name⟩ : DTNEndpoint).behindName = some (ofList (name.toList.takeWhile (· ≠ '/'))) := by
  rw [DTNEndpoint.behindName, toList_append]
  rfl

lemma named_slashes (name : String) : (dtn ⟨"//" ++ name⟩).Named := by simp [Named]

lemma Named.cases (h : a.Named) : (∃ name, a = dtn ⟨"//" ++ name⟩) ∨ ∃ e, a = ipn e := by
  cases a with
  | ipn e => exact .inr ⟨e, rfl⟩
  | dtn =>
    obtain ⟨name, hname⟩ := append_of_prefix h
    exact .inl ⟨name, congrArg dtn (congrArg DTNEndpoint.mk hname)⟩

lemma node_slashes (name : String) :
    (dtn ⟨"//" ++ name⟩).node = dtn ⟨"//" ++ ofList (name.toList.takeWhile (· ≠ '/'))⟩ := by
  rw [node, behindName_slashes]
  rfl

lemma Named.getNodeEndpoint (h : a.Named) : (a.getNodeEndpoint : Outcome ε Endpoint) = .ok a.node := by
  obtain ⟨_, rfl⟩ | ⟨_, rfl⟩ := h.cases
  · rw [node_slashes, getNodeEndpoint, DTNEndpoint.getNodeEndpoint,
      DTNEndpoint.nodeName_eq, behindName_slashes]
    rfl
  · rfl

lemma named_node (a : Endpoint) : a.node.Named := by
  cases a with
  | dtn => exact named_slashes _
  | ipn => trivial

lemma Named.node_node (h : a.Named) : a.node.node = a.node := by
  obtain ⟨_, rfl⟩ | ⟨_, rfl⟩ := h.cases
  · simp [node_slashes, takeWhile_idem]
  · rfl

lemma isDtn_node (a : Endpoint) : a.node.isDtn = a.isDtn := by
  cases a <;> rfl

/-- Endpoints match if they have the same node. -/
lemma Named.matchesNode (ha : a.Named) (hb : b.Named) :
    (a.matchesNode b : Outcome ε Bool) = .ok (decide (a.node = b.node)) := by
  obtain ⟨_, rfl⟩ | ⟨_, rfl⟩ := ha.cases <;> obtain ⟨_, rfl⟩ | ⟨_, rfl⟩ := hb.cases
  · simp [DTNEndpoint.matchesNode_of_names, behindName_slashes, node_slashes,
      Bool.beq_eq_decide_eq, matchesNode]
  · rfl
  · rfl
  · simp [matchesNode, IPNEndpoint.matchesNode, node, IPNEndpoint.getNodeEndpoint, Bool.beq_eq_decide_eq]

lemma named_of_getNodeEndpoint (h : (a.getNodeEndpoint : Outcome ε Endpoint) = .ok a) : a.Named := by
  cases a with
  | ipn => trivial
  | dtn =>
    obtain ⟨_, hd, h⟩ := Outcome.bind_eq_ok.mp h
    cases h
    obtain ⟨name, -, h⟩ := Outcome.bind_eq_ok.mp hd
    cases h
    exact named_slashes name

lemma Named.getNodeEndpoint_inj (ha : a.Named) (hb : b.Named) :
    (a.getNodeEndpoint : Outcome ε Endpoint) = b.getNodeEndpoint ↔ a.node = b.node := by
  rw [ha.getNodeEndpoint, hb.getNodeEndpoint, Outcome.ok.injEq]

end Endpoint

end Dtn.Bp7
