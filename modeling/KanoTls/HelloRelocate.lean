import KanoTls.HelloPatch

/-! A template beside the bytes it was built from: nothing is stripped, the name is patched,
and behind the name everything has moved by as much. -/
namespace KanoTls.Hello
open Uot Wire Patch

theorem placedExtensions {b : Bytes} {layout : ClientHelloLayout} {entries : List Entry} (placed : Placed b layout entries) :
    walkClientHelloExtensions b = some (layout.extensionsLenRange.1,entries) := by
  have own : entries.map (retype b) = entries := by
    refine (List.map_congr_left (fun e member => ?_)).trans (List.map_id _)
    rw [retype,← (entryBounds placed member).extType]
    rfl
  have walked := likeExtensions placed (twinSelf placed).toLike
  rwa [own] at walked

theorem keptNothing {bytes kept : Bytes} {extensionsEnd fuel cursor removed : Nat}
    (ran : keptExtensions bytes strippedExtensionTypes extensionsEnd fuel cursor = some (removed,kept)) : removed = 0 := by
  induction fuel generalizing cursor removed kept with
  | zero =>
    cases Option.some.inj ran
    rfl
  | succ fuel ih =>
    rw [keptExtensions] at ran
    by_cases more : cursor + 4 ≤ extensionsEnd
    · rw [if_pos more] at ran
      obtain ⟨extType,_,ran⟩ := Option.bind_eq_some_iff.mp ran
      obtain ⟨extLen,_,ran⟩ := Option.bind_eq_some_iff.mp ran
      obtain ⟨_,ran⟩ := Option.ite_none_left_eq_some.mp ran
      obtain ⟨⟨later,rest⟩,ranRest,ran⟩ := Option.bind_eq_some_iff.mp ran
      have kept : extType ∉ strippedExtensionTypes := List.not_mem_nil
      dsimp only at ran
      rw [if_neg kept] at ran
      cases Option.some.inj ran
      exact ih ranRest
    · rw [if_neg more] at ran
      cases Option.some.inj ran
      rfl

theorem stripsNothing {raw bytes : Bytes} (ran : stripClientHelloExtensions raw = some bytes) : bytes = raw := by
  unfold stripClientHelloExtensions stripNamedClientHelloExtensions at ran
  obtain ⟨_,ran⟩ := Option.ite_none_left_eq_some.mp ran
  obtain ⟨_,ran⟩ := Option.ite_none_left_eq_some.mp ran
  obtain ⟨suitesLen,_,ran⟩ := Option.bind_eq_some_iff.mp ran
  obtain ⟨_,ran⟩ := Option.ite_none_left_eq_some.mp ran
  obtain ⟨extensionsLen,_,ran⟩ := Option.bind_eq_some_iff.mp ran
  obtain ⟨_,ran⟩ := Option.ite_none_left_eq_some.mp ran
  obtain ⟨⟨removed,kept⟩,found,ran⟩ := Option.bind_eq_some_iff.mp ran
  dsimp only at ran
  rw [if_pos (keptNothing found)] at ran
  exact (Option.some.inj ran).symm

theorem patchedAlready {b sni : Bytes} {layout : ClientHelloLayout} {entries : List Entry} {e : Entry}
    (named : Named b layout entries e) (same : slice b layout.sniRange.1 layout.sniRange.2 = sni) : Patched b layout e sni b := by
  obtain ⟨_,_,_,whole,fits⟩ := namedBounds named
  rw [named.sni] at same
  have length : u16At b (e.start + 7) = sni.length := by
    rw [← same,sliceLength (Nat.le_trans whole fits),nameRange]
    dsimp only
    omega
  refine ⟨by rw [length],fun _ _ _ _ _ => rfl,rfl,fun i => by rw [length],by rw [length],by rw [length],by rw [length],
    by rw [length],length,?_⟩
  rw [nameRange,length] at same
  exact same

theorem templatePatched {sni raw : Bytes} {fingerprint : Option (List Char)} {t : ClientHelloTemplate}
    (built : buildClientHelloTemplate sni fingerprint raw = some t) :
    ∃ layout entries e, parseClientHelloLayout raw = some layout ∧ Named raw layout entries e ∧
      Patched raw layout e sni t.bytes ∧ ∃ layout' entries' e', Named t.bytes layout' entries' e' := by
  unfold buildClientHelloTemplate at built
  obtain ⟨_,_,built⟩ := Option.bind_eq_some_iff.mp built
  obtain ⟨stripped,strips,built⟩ := Option.bind_eq_some_iff.mp built
  cases stripsNothing strips
  obtain ⟨layout,parsed,built⟩ := Option.bind_eq_some_iff.mp built
  obtain ⟨⟨bytes,layout'⟩,patched,built⟩ := Option.bind_eq_some_iff.mp built
  obtain ⟨_,_,built⟩ := Option.bind_eq_some_iff.mp built
  obtain ⟨_,_,built⟩ := Option.bind_eq_some_iff.mp built
  obtain ⟨_,built⟩ := Option.ite_none_left_eq_some.mp built
  obtain ⟨_,built⟩ := Option.ite_none_left_eq_some.mp built
  cases Option.some.inj built
  obtain ⟨entries,e,named⟩ := layoutNamed parsed
  refine ⟨layout,entries,e,parsed,named,?_⟩
  unfold patchSni at patched
  split at patched
  · rename_i same
    cases Option.some.inj patched
    exact ⟨patchedAlready named same,layout,entries,e,named⟩
  · obtain ⟨again,ran,patched⟩ := Option.bind_eq_some_iff.mp patched
    obtain ⟨layout',parsed',patched⟩ := Option.bind_eq_some_iff.mp patched
    cases Option.some.inj patched
    obtain ⟨entries',e',named'⟩ := layoutNamed parsed'
    exact ⟨patchedSni named ran,layout',entries',e',named'⟩

def shifted (e : Entry) (old new p : Nat) : Nat := if p ≤ e.start then p else p - old + new

section Relocated
variable {b sni out : Bytes} {layout layout' : ClientHelloLayout} {entries entries' : List Entry} {e : Entry}

theorem patchedFront (named : Named b layout entries e) (patched : Patched b layout e sni out)
    (placed' : Placed out layout' entries') : layout'.extensionsLenRange = layout.extensionsLenRange := by
  have front := suitesFront named.placed
  have behind := extensionsBehind named.placed
  obtain ⟨_,_,start,_,_⟩ := namedBounds named
  have session := named.placed.session
  have kept {i : Nat} (after : 9 ≤ i) (before : i < layout.extensionsLenRange.1) : out[i]? = b[i]? := by
    apply patched.front i (by omega)
    · exact fun inside => by have := inside.2; dsimp only at this; omega
    · exact fun inside => by have := inside.2; dsimp only at this; omega
    · exact fun inside => by have := inside.1; omega
  have isSession : layout'.sessionIdRange = layout.sessionIdRange := by
    rw [placed'.session,session,byteSame (kept (by omega) (by omega))]
  have isSuites : layout'.cipherSuitesRange = layout.cipherSuitesRange := by
    rw [placed'.suites,named.placed.suites,isSession,u16Same (kept (by omega) (by omega)) (kept (by omega) (by omega))]
  rw [placed'.extensionsLen,named.placed.extensionsLen,isSuites,byteSame (kept (by omega) (by omega))]

theorem u16Moved {w : Bytes} {i j : Nat} (first : w[i]? = b[j]?) (second : w[i+1]? = b[j+1]?) : u16At w i = u16At b j := by
  simp only [u16At,byteAt,List.getD_eq_getElem?_getD,first,second]

theorem patchedMoved (patched : Patched b layout e sni out) {i : Nat} (after : e.start + 9 + u16At b (e.start + 7) ≤ i) :
    out[i - u16At b (e.start + 7) + sni.length]? = b[i]? := by
  obtain ⟨k,rfl⟩ := Nat.exists_eq_add_of_le after
  rw [← patched.behind k]
  congr 1
  omega

theorem patchedMovedU16 (patched : Patched b layout e sni out) {i p : Nat} (after : e.start + 9 + u16At b (e.start + 7) ≤ i)
    (here : p = i - u16At b (e.start + 7) + sni.length) : u16At out p = u16At b i := by
  have next : out[p + 1]? = b[i + 1]? := by
    rw [← @patchedMoved _ _ _ _ _ patched (i + 1) (by omega),here]
    congr 1
    omega
  exact u16Moved (by rw [here,patchedMoved patched after]) next

theorem patchedKept (named : Named b layout entries e) (patched : Patched b layout e sni out) {i : Nat}
    (far : layout.extensionsLenRange.2 ≤ i) (near : i < e.start + 2) : out[i]? = b[i]? := by
  have front := suitesFront named.placed
  apply patched.front i near
  · exact fun inside => by have := inside.2; dsimp only at this; omega
  · exact fun inside => by have := inside.2; dsimp only at this; omega
  · exact fun inside => by have := inside.2; omega

theorem patchedHeaded (named : Named b layout entries e) (patched : Patched b layout e sni out) {other : Entry}
    (member : other ∈ entries) :
    Headed out (layout.extensionsLenRange.2 + u16At out layout.extensionsLenRange.1)
      (shifted e (u16At b (e.start + 7)) sni.length) other := by
  obtain ⟨inside,front,start,whole,fits⟩ := namedBounds named
  have behind := extensionsBehind named.placed
  have own := entryBounds named.placed inside
  have bounds := entryBounds named.placed member
  have := own.within
  have := own.stop
  have := bounds.header
  have := bounds.within
  have after := bounds.after
  have stop := bounds.stop
  have extensions := patched.extensionsLen
  have length := patched.extLen
  dsimp only [nameRange] at whole
  have kept {i : Nat} (far : layout.extensionsLenRange.2 ≤ i) (near : i < e.start + 2) := patchedKept named patched far near
  rcases entriesApart named.placed member inside with rfl | first | second
  · have atStart : shifted other (u16At b (other.start + 7)) sni.length other.start = other.start := if_pos (Nat.le_refl _)
    have atStop : shifted other (u16At b (other.start + 7)) sni.length other.stop =
        other.stop - u16At b (other.start + 7) + sni.length := if_neg (by omega)
    refine ⟨?_,?_,?_⟩
    · rw [atStart,bounds.extType,u16Same (kept (by omega) (by omega)) (kept (by omega) (by omega))]
    · rw [atStart,atStop]
      omega
    · rw [atStop]
      omega
  · have atStart : shifted e (u16At b (e.start + 7)) sni.length other.start = other.start := if_pos (by omega)
    have atStop : shifted e (u16At b (e.start + 7)) sni.length other.stop = other.stop := if_pos first
    refine ⟨?_,?_,?_⟩
    · rw [atStart,bounds.extType,u16Same (kept (by omega) (by omega)) (kept (by omega) (by omega))]
    · rw [atStart,atStop,u16Same (kept (by omega) (by omega)) (kept (by omega) (by omega))]
      exact stop
    · rw [atStop]
      omega
  · have atStart : shifted e (u16At b (e.start + 7)) sni.length other.start =
        other.start - u16At b (e.start + 7) + sni.length := if_neg (by omega)
    have atStop : shifted e (u16At b (e.start + 7)) sni.length other.stop =
        other.stop - u16At b (e.start + 7) + sni.length := if_neg (by omega)
    have size := @patchedMovedU16 _ _ _ _ _ patched (other.start + 2)
      (other.start - u16At b (e.start + 7) + sni.length + 2) (by omega) (by omega)
    refine ⟨?_,?_,?_⟩
    · rw [atStart,bounds.extType,patchedMovedU16 patched (by omega) rfl]
    · rw [atStart,atStop,size]
      omega
    · rw [atStop]
      omega

theorem patchedEntries (named : Named b layout entries e) (patched : Patched b layout e sni out)
    (placed' : Placed out layout' entries') :
    entries' = entries.map (relocate (shifted e (u16At b (e.start + 7)) sni.length)) := by
  obtain ⟨inside,front,start,whole,fits⟩ := namedBounds named
  have behind := extensionsBehind named.placed
  have := (entryBounds named.placed inside).within
  have extensions := patched.extensionsLen
  have blockFits := named.placed.fits
  have blockFits' := placed'.fits
  have walked' := placed'.walked
  rw [patchedFront named patched placed'] at walked' blockFits'
  dsimp only [nameRange] at whole
  have walk := walkOfEntries (by omega) named.placed.walked
  have moved := walk.relocated (fun other member => patchedHeaded named patched member) (fun p last => by
    rw [shifted,if_neg (by omega)]
    omega)
  rw [shifted,if_pos (by omega)] at moved
  exact Option.some.inj (walked'.symm.trans (moved.listed (by omega)))

end Relocated

end KanoTls.Hello
