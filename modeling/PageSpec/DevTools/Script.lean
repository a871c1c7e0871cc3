import PageSpec.Locator.Codec
/-!
Scripts that are evaluated in a page. A locator is resolved there by a fixed resolver, which gets its
steps as one JSON literal; what comes from documents is never spliced into the text of a script but
as such a literal.
-/
namespace PageSpec.DevTools.Script

/-- A value as it stands in a script. -/
def literal (v : Json) : String := v.text

private def block (lines : List String) : String := "\n".intercalate lines

/-- Defines the resolver: from a list of steps to the elements they lead to, in document order. -/
def resolver : String := block [
  "",
  "const __jwNorm = (s) => (s || \"\").replace(/\\s+/g, \" \").trim();",
  "const __jwOrder = (els) => \x7b",
  "  const uniq = Array.from(new Set(els));",
  "  uniq.sort((a, b) => \x7b",
  "    if (a === b) return 0;",
  "    const pos = a.compareDocumentPosition(b);",
  "    return pos & Node.DOCUMENT_POSITION_FOLLOWING ? -1 : 1;",
  "  \x7d);",
  "  return uniq;",
  "\x7d;",
  "const __jwAll = (root) => Array.from(root.querySelectorAll(\"*\"));",
  "const __jwResolve = (steps) => \x7b",
  "  let roots = [document];",
  "  let els = null;",
  "  const scopes = () => (els === null ? roots : els);",
  "  for (const step of steps) \x7b",
  "    const kind = typeof step === \"string\" ? step : Object.keys(step)[0];",
  "    const arg = typeof step === \"string\" ? null : step[kind];",
  "    switch (kind) \x7b",
  "      case \"Frame\": \x7b",
  "        const docs = [];",
  "        for (const s of scopes()) \x7b",
  "          for (const f of s.querySelectorAll(arg)) \x7b",
  "            if (f.contentDocument) docs.push(f.contentDocument);",
  "          \x7d",
  "        \x7d",
  "        roots = docs;",
  "        els = null;",
  "        break;",
  "      \x7d",
  "      case \"Css\": \x7b",
  "        const out = [];",
  "        for (const s of scopes()) out.push(...s.querySelectorAll(arg));",
  "        els = __jwOrder(out);",
  "        break;",
  "      \x7d",
  "      case \"Text\": \x7b",
  "        const out = [];",
  "        for (const s of scopes()) \x7b",
  "          const hits = __jwAll(s).filter((e) => __jwNorm(e.textContent) === arg);",
  "          out.push(...hits.filter((e) => !hits.some((o) => o !== e && e.contains(o))));",
  "        \x7d",
  "        els = __jwOrder(out);",
  "        break;",
  "      \x7d",
  "      case \"TagText\": \x7b",
  "        const needle = arg.text.toLowerCase();",
  "        const out = [];",
  "        for (const s of scopes()) \x7b",
  "          for (const e of s.querySelectorAll(arg.tag)) \x7b",
  "            if (__jwNorm(e.textContent).toLowerCase().includes(needle)) out.push(e);",
  "          \x7d",
  "        \x7d",
  "        els = __jwOrder(out);",
  "        break;",
  "      \x7d",
  "      case \"Parent\":",
  "        els = __jwOrder(scopes().map((e) => e.parentElement).filter(Boolean));",
  "        break;",
  "      case \"First\":",
  "        els = scopes().slice(0, 1);",
  "        break;",
  "      case \"Last\":",
  "        els = scopes().slice(-1);",
  "        break;",
  "      case \"Nth\": \x7b",
  "        const list = scopes();",
  "        const i = arg < 0 ? list.length + arg : arg;",
  "        els = i >= 0 && i < list.length ? [list[i]] : [];",
  "        break;",
  "      \x7d",
  "    \x7d",
  "  \x7d",
  "  return els === null ? roots.map((r) => r.documentElement || r) : els;",
  "\x7d;",
  ""]

/-- What every script starts with. -/
def opening : String := "(() => \x7b " ++ resolver ++ "\n"

/-- What every script ends with. -/
def closing : String := "\n\x7d)()"

/-- A script that runs a body with `els` for the elements of a locator and `el` for the first. -/
def withElements (l : Locator) (body : String) : String :=
  opening ++ "const els = __jwResolve(" ++ literal l.toJson ++ ");\nconst el = els[0] || null;\n" ++
    body ++ closing

/-- A script that counts the elements of a locator. -/
def count (l : Locator) : String := withElements l "return els.length;"

/-- A script that fails without an element, and then runs a body. -/
def withElement (l : Locator) (body : String) : String :=
  withElements l ("if (!el) throw new Error(\"no element matches locator\");\n" ++ body)

/-- A script that does something to an element and answers with `true`. -/
def action (l : Locator) (body : String) : String := withElement l (body ++ "\nreturn true;")

/-! ## Bodies -/

/-- The box of an element in the coordinates of the outermost window. -/
def box : String := block [
  "",
  "el.scrollIntoView(\x7b block: 'center', inline: 'center' \x7d);",
  "let r = el.getBoundingClientRect();",
  "let x = r.x, y = r.y;",
  "let win = el.ownerDocument.defaultView;",
  "while (win && win.frameElement) \x7b",
  "  const fr = win.frameElement.getBoundingClientRect();",
  "  x += fr.x + win.frameElement.clientLeft;",
  "  y += fr.y + win.frameElement.clientTop;",
  "  win = win.parent;",
  "\x7d",
  "return \x7b x, y, width: r.width, height: r.height \x7d;",
  ""]

/-- Whether the element, or one in it, is hit at its centre. -/
def hit : String := block [
  "",
  "const r = el.getBoundingClientRect();",
  "const hit = el.ownerDocument.elementFromPoint(r.x + r.width / 2, r.y + r.height / 2);",
  "return !!hit && (hit === el || el.contains(hit));",
  ""]

def focus : String := "el.focus();"
def click : String := "el.click();"
def centre : String := "el.scrollIntoView(\x7b block: 'center', inline: 'center' \x7d);"
def handle : String := "return el;"
def text : String := "return el.textContent;"
def tag : String := "return el.nodeName.toLowerCase();"
def files : String := "return el.files ? el.files.length : 0;"
def value : String :=
  "if (!('value' in el)) throw new Error('element is not an input'); return String(el.value);"
def attr (name : String) : String := "return el.getAttribute(" ++ literal (.str name) ++ ");"

def visible : String := block [
  "if (!el) return false;",
  "            const style = el.ownerDocument.defaultView.getComputedStyle(el);",
  "            const r = el.getBoundingClientRect();",
  "            return style.visibility !== 'hidden' && r.width > 0 && r.height > 0;"]

private def notified : List String := [
  "                el.dispatchEvent(new Event('input', \x7b bubbles: true \x7d));",
  "                el.dispatchEvent(new Event('change', \x7b bubbles: true \x7d));"]

/-- Replaces the value of an input through the setter of its kind, or the text of an editable
element. -/
def fill (value : String) : String :=
  let v := literal (.str value)
  block ([
  "if (el.isContentEditable) \x7b el.focus(); el.textContent = " ++ v ++ "; \x7d else \x7b",
  "                  const proto = Object.getPrototypeOf(el);",
  "                  const setter = Object.getOwnPropertyDescriptor(proto, 'value');",
  "                  if (!setter || !setter.set) throw new Error('element is not fillable');",
  "                  el.focus();",
  "                  setter.set.call(el, " ++ v ++ ");",
  "                \x7d"] ++ notified)

def setChecked (checked : Bool) : String :=
  let v := literal (.bool checked)
  block [
  "if (!('checked' in el)) throw new Error('element is not a checkbox or radio');",
  "                if (el.checked !== " ++ v ++ ") el.click();",
  "                if (el.checked !== " ++ v ++ ") throw new Error('checked state did not change');"]

/-- Selects the wanted options of a list and yields their values. -/
def select (wanted : Json) : String :=
  block ([
  "if (el.nodeName.toLowerCase() !== 'select') throw new Error('element is not a <select>');",
  "                const spec = " ++ literal wanted ++ ";",
  "                const kind = Object.keys(spec)[0];",
  "                const wanted = spec[kind];",
  "                const opts = Array.from(el.options);",
  "                const picked = wanted.map((w) => opts.find((o, i) =>",
  "                  kind === 'values' ? o.value === w : kind === 'labels' ? o.label === w || " ++
    "o.textContent.trim() === w : i === w));",
  "                if (picked.some((o) => !o)) throw new Error('option not found');",
  "                for (const o of opts) o.selected = picked.includes(o);"] ++ notified ++
  ["                return picked.map((o) => o.value);"])

/-! ## Scripts on the page -/

def pageText : String := "document.body ? document.body.innerText : ''"
def scrolled : String := "[window.scrollX, window.scrollY]"
def scrollTop : String := "window.scrollTo(\x7b top: 0, behavior: 'auto' \x7d); true"
def scrollBottom : String :=
  "window.scrollTo(\x7b top: document.body.scrollHeight, behavior: 'auto' \x7d); true"
/-- Scrolls to a point; a null coordinate stays as it is. -/
def scrollTo (x y : Json) (behavior : String) : String :=
  "window.scrollTo(\x7b left: " ++ literal x ++ " ?? window.scrollX, top: " ++ literal y ++
    " ?? window.scrollY, behavior: " ++ literal (.str behavior) ++ " \x7d); true"

end PageSpec.DevTools.Script
