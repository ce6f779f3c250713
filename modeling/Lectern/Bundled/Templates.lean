/-!
# The bundled templates

The texts of the templates that are used when no other directory of templates is given, cut into
pieces no longer than a line. Braces are written by their codes.
-/

namespace Lectern.Bundled

/-- The pieces of the fragment that renders a list of elements. -/
def actionPieces : List String :=
  ["\x7b#- Renders the element list bound to \x60elems\x60. Nested sections recurse. ",
    "-#\x7d\n",
    "\x7b%- for e in elems recursive %\x7d\n",
    "\x7b%- if e.kind == \"section\" %\x7d\n",
    "\x7b%- set level = e.number|length + 1 %\x7d\n",
    "<h\x7b\x7b level \x7d\x7d id=\"TOC_\x7b\x7b e.number|join(\".\") \x7d\x7d\">",
    "\x7b\x7b e.title \x7d\x7d</h\x7b\x7b level \x7d\x7d>\n",
    "\x7b\x7b- loop(e.elems) \x7d\x7d\n",
    "\x7b%- elif e.kind == \"list\" %\x7d\n",
    "<ul>\n",
    "\x7b%- for b in e.bullets %\x7d\n",
    "  <li>\x7b\x7b style(b) \x7d\x7d</li>\n",
    "\x7b%- endfor %\x7d\n",
    "</ul>\n",
    "\x7b%- elif e.kind == \"text\" %\x7d\n",
    "\x7b%- if e.pre %\x7d\n",
    "<div class=\"code\"><pre>\x7b\x7b e.lines|join(\"\\n\") \x7d\x7d</pre></div>\n",
    "\x7b%- else %\x7d\n",
    "<p>\n",
    "\x7b%- for l in e.lines %\x7d\n",
    "  \x7b\x7b style(l) \x7d\x7d\n",
    "\x7b%- endfor %\x7d\n",
    "</p>\n",
    "\x7b%- endif %\x7d\n",
    "\x7b%- elif e.kind == \"code\" %\x7d\n",
    "<div class=\"code\x7b% if playable(e) %\x7d playground\x7b% endif %\x7d\"",
    "\x7b% if e.edit %\x7d contenteditable=\"true\" spellcheck=\"false\"\x7b% endif %\x7d>\n",
    "\x7b%- if e.prefix %\x7d<pre style=\"display: none\"><span>\x7b\x7b e.prefix \x7d\x7d",
    "</span></pre>\x7b% endif -%\x7d\n",
    "<pre\x7b% if e.numbers %\x7d class=\"numbers\"\x7b% endif %\x7d>\n",
    "\x7b%- for line in e.lines %\x7d<span num=\"\x7b\x7b line.number \x7d\x7d\">",
    "\x7b\x7b line.text \x7d\x7d</span>\n",
    "\x7b% endfor %\x7d</pre>\n",
    "\x7b%- if e.suffix %\x7d<pre style=\"display: none\"><span>\x7b\x7b e.suffix \x7d\x7d",
    "</span></pre>\x7b% endif -%\x7d\n",
    "</div>\n",
    "\x7b%- elif e.kind == \"image\" %\x7d\n",
    "<div class=\"image\">\n",
    "  <img src=\"\x7b\x7b e.url \x7d\x7d\"\x7b% if e.height %\x7d height=\"",
    "\x7b\x7b e.height \x7d\x7d\"\x7b% endif %\x7d\x7b% if e.width %\x7d width=\"",
    "\x7b\x7b e.width \x7d\x7d\"\x7b% endif %\x7d>\n",
    "</div>\n",
    "\x7b%- elif e.kind == \"iframe\" %\x7d\n",
    "<iframe src=\"\x7b\x7b e.url \x7d\x7d\"\x7b% if e.height %\x7d height=\"",
    "\x7b\x7b e.height \x7d\x7d\"\x7b% endif %\x7d\x7b% if e.width %\x7d width=\"",
    "\x7b\x7b e.width \x7d\x7d\"\x7b% endif %\x7d></iframe>\n",
    "\x7b%- elif e.kind == \"link\" %\x7d\n",
    "<p class=\"link\"><a href=\"\x7b\x7b e.url \x7d\x7d\" target=\"_blank\">",
    "\x7b\x7b style(e.label) \x7d\x7d</a></p>\n",
    "\x7b%- elif e.kind == \"caption\" %\x7d\n",
    "<figcaption>\x7b\x7b style(e.text) \x7d\x7d</figcaption>\n",
    "\x7b%- elif e.kind == \"html\" %\x7d\n",
    "\x7b\x7b e.html|safe \x7d\x7d\n",
    "\x7b%- endif %\x7d\n",
    "\x7b%- endfor %\x7d\n"]

/-- The pieces of the page of a slide deck. -/
def slidesPieces : List String :=
  ["<!DOCTYPE html>\n",
    "<html>\n",
    "  <head>\n",
    "    <title>\x7b\x7b doc.title \x7d\x7d</title>\n",
    "    <meta charset=\"utf-8\">\n",
    "    <meta name=\"viewport\" content=\"width=device-width, initial-scale=1\">\n",
    "    <link rel=\"stylesheet\" href=\"static/styles.css\">\n",
    "    <script src=\"static/slides.js\"></script>\n",
    "    <script src=\"static/play.js\"></script>\n",
    "  </head>\n",
    "\n",
    "  <body style=\"display: none\">\n",
    "\n",
    "    <section class=\"slides layout-widescreen\">\n",
    "\n",
    "      <article>\n",
    "        <h1>\x7b\x7b doc.title \x7d\x7d</h1>\n",
    "        \x7b%- if doc.subtitle %\x7d\n",
    "        <h3>\x7b\x7b doc.subtitle \x7d\x7d</h3>\n",
    "        \x7b%- endif %\x7d\n",
    "        \x7b%- if date %\x7d\n",
    "        <h3>\x7b\x7b date \x7d\x7d</h3>\n",
    "        \x7b%- endif %\x7d\n",
    "        \x7b%- for author in doc.authors %\x7d\n",
    "        <div class=\"presenter\">\n",
    "          \x7b%- with elems = author.elems %\x7d\x7b% include \"action.tmpl\" %\x7d",
    "\x7b% endwith %\x7d\n",
    "        </div>\n",
    "        \x7b%- endfor %\x7d\n",
    "      </article>\n",
    "      \x7b% for s in doc.sections %\x7d\n",
    "      <article\x7b% if s.classes %\x7d class=\"\x7b\x7b s.classes|join(\" \") \x7d\x7d\"",
    "\x7b% endif %\x7d\x7b% if s.styles %\x7d style=\"\x7b\x7b s.styles|join(\"; \") \x7d\x7d",
    "\"\x7b% endif %\x7d>\n",
    "        \x7b%- if s.elems %\x7d\n",
    "        <h3>\x7b\x7b s.title \x7d\x7d</h3>\n",
    "        \x7b%- else %\x7d\n",
    "        <h2>\x7b\x7b s.title \x7d\x7d</h2>\n",
    "        \x7b%- endif %\x7d\n",
    "        \x7b%- with elems = s.elems %\x7d\x7b% include \"action.tmpl\" %\x7d",
    "\x7b% endwith %\x7d\n",
    "        \x7b%- if notes_enabled and s.notes %\x7d\n",
    "        <aside class=\"notes\">\n",
    "          \x7b%- for n in s.notes %\x7d\n",
    "          <p>\x7b\x7b style(n) \x7d\x7d</p>\n",
    "          \x7b%- endfor %\x7d\n",
    "        </aside>\n",
    "        \x7b%- endif %\x7d\n",
    "        <span class=\"pagenumber\">\x7b\x7b loop.index + 1 \x7d\x7d</span>\n",
    "      </article>\n",
    "      \x7b% endfor %\x7d\n",
    "\n",
    "      <article>\n",
    "        <h3>Thank you</h3>\n",
    "        \x7b%- for author in doc.authors %\x7d\n",
    "        <div class=\"presenter\">\n",
    "          \x7b%- with elems = author.elems %\x7d\x7b% include \"action.tmpl\" %\x7d",
    "\x7b% endwith %\x7d\n",
    "        </div>\n",
    "        \x7b%- endfor %\x7d\n",
    "      </article>\n",
    "\n",
    "    </section>\n",
    "\n",
    "    <div id=\"help\">\n",
    "      Use the left and right arrow keys or click the left and right\n",
    "      edges of the page to navigate between slides.<br>\n",
    "      (Press 'H' or navigate to hide this message.)\n",
    "    </div>\n",
    "\n",
    "  </body>\n",
    "</html>\n"]

/-- The pieces of the page of an article. -/
def articlePieces : List String :=
  ["<!DOCTYPE html>\n",
    "<html>\n",
    "  <head>\n",
    "    <title>\x7b\x7b doc.title \x7d\x7d</title>\n",
    "    <meta charset=\"utf-8\">\n",
    "    <meta name=\"viewport\" content=\"width=device-width, initial-scale=1\">\n",
    "    <link rel=\"stylesheet\" href=\"static/article.css\">\n",
    "    <script src=\"static/play.js\"></script>\n",
    "    \x7b%- if doc.summary %\x7d\n",
    "    <meta name=\"description\" content=\"\x7b\x7b doc.summary \x7d\x7d\">\n",
    "    \x7b%- endif %\x7d\n",
    "    \x7b%- if doc.tags %\x7d\n",
    "    <meta name=\"keywords\" content=\"\x7b\x7b doc.tags|join(\", \") \x7d\x7d\">\n",
    "    \x7b%- endif %\x7d\n",
    "  </head>\n",
    "  <body>\n",
    "    <div id=\"topbar\">\n",
    "      <div class=\"container\">\n",
    "        <div id=\"heading\">\x7b\x7b doc.title \x7d\x7d\x7b% if doc.subtitle %\x7d - ",
    "\x7b\x7b doc.subtitle \x7d\x7d\x7b% endif %\x7d</div>\n",
    "      </div>\n",
    "    </div>\n",
    "\n",
    "    <div id=\"page\">\n",
    "      <div class=\"container\">\n",
    "        <h1>\x7b\x7b doc.title \x7d\x7d\x7b% if doc.subtitle %\x7d<br><small>",
    "\x7b\x7b doc.subtitle \x7d\x7d</small>\x7b% endif %\x7d</h1>\n",
    "        \x7b%- if date %\x7d\n",
    "        <p class=\"date\">\x7b\x7b date \x7d\x7d</p>\n",
    "        \x7b%- endif %\x7d\n",
    "\n",
    "        \x7b%- if doc.sections %\x7d\n",
    "        <div id=\"toc\">\n",
    "          <ul class=\"toc\">\n",
    "          \x7b%- for s in doc.sections recursive %\x7d\n",
    "            <li><a href=\"#TOC_\x7b\x7b s.number|join(\".\") \x7d\x7d\">",
    "\x7b\x7b s.title \x7d\x7d</a></li>\n",
    "            ",
    "\x7b%- set subs = s.elems|selectattr(\"kind\", \"equalto\", \"section\")|list %\x7d\n",
    "            \x7b%- if subs %\x7d\n",
    "            <ul>\x7b\x7b loop(subs) \x7d\x7d</ul>\n",
    "            \x7b%- endif %\x7d\n",
    "          \x7b%- endfor %\x7d\n",
    "          </ul>\n",
    "        </div>\n",
    "        \x7b%- endif %\x7d\n",
    "\n",
    "        \x7b%- for s in doc.sections %\x7d\n",
    "        <h2 id=\"TOC_\x7b\x7b s.number|join(\".\") \x7d\x7d\">\x7b\x7b s.title \x7d\x7d",
    "</h2>\n",
    "        \x7b%- with elems = s.elems %\x7d\x7b% include \"action.tmpl\" %\x7d",
    "\x7b% endwith %\x7d\n",
    "        \x7b%- if notes_enabled and s.notes %\x7d\n",
    "        <aside class=\"notes\">\n",
    "          \x7b%- for n in s.notes %\x7d\n",
    "          <p>\x7b\x7b style(n) \x7d\x7d</p>\n",
    "          \x7b%- endfor %\x7d\n",
    "        </aside>\n",
    "        \x7b%- endif %\x7d\n",
    "        \x7b%- endfor %\x7d\n",
    "\n",
    "        \x7b%- if doc.authors %\x7d\n",
    "        <h2>Authors</h2>\n",
    "        \x7b%- for author in doc.authors %\x7d\n",
    "        <div class=\"author\">\n",
    "          \x7b%- with elems = author.elems %\x7d\x7b% include \"action.tmpl\" %\x7d",
    "\x7b% endwith %\x7d\n",
    "        </div>\n",
    "        \x7b%- endfor %\x7d\n",
    "        \x7b%- endif %\x7d\n",
    "      </div>\n",
    "    </div>\n",
    "\n",
    "    <div id=\"footer\">\n",
    "      <div class=\"container\">\n",
    "        \x7b%- for url in doc.old_url %\x7d\n",
    "        <p class=\"old-url\">Previously published at \x7b\x7b url \x7d\x7d</p>\n",
    "        \x7b%- endfor %\x7d\n",
    "      </div>\n",
    "    </div>\n",
    "  </body>\n",
    "</html>\n"]

/-- The text of some pieces. -/
def textOf (pieces : List String) : String := String.ofList (pieces.flatMap String.toList)

/-- The fragment that renders a list of elements. -/
def action : String := textOf actionPieces

/-- The page of a slide deck. -/
def slides : String := textOf slidesPieces

/-- The page of an article. -/
def article : String := textOf articlePieces

@[simp] theorem toList_textOf (pieces : List String) :
    (textOf pieces).toList = pieces.flatMap String.toList := String.toList_ofList

end Lectern.Bundled
