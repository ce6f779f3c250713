import Lectern.Path

/-!
# The bundled assets

The style sheets and scripts that are written next to a page when no other directory of assets is
given. Braces are written by their codes.
-/

namespace Lectern.Bundled

/-- The style sheet of articles. -/
def articleStyle : String :=
"/* Article layout. */

body \x7b
  margin: 0;
  font-family: Arial, sans-serif;
  font-size: 16px;
  line-height: 1.5;
  color: #222;
  background: white;
\x7d

.container \x7b
  max-width: 800px;
  margin: 0 auto;
  padding: 0 20px;
\x7d

#topbar \x7b
  padding: 10px 0;
  background: #e0ebf5;
\x7d

#heading \x7b
  font-size: 20px;
  font-weight: bold;
\x7d

h1 \x7b font-size: 30px; margin: 30px 0 10px; \x7d
h1 small \x7b font-size: 20px; color: #666; \x7d
h2 \x7b font-size: 24px; margin: 30px 0 10px; background: #e0ebf5; padding: 2px 5px; \x7d
h3 \x7b font-size: 20px; margin: 20px 0 10px; \x7d
h4, h5, h6 \x7b font-size: 16px; margin: 20px 0 10px; \x7d

a \x7b color: #375eab; text-decoration: none; \x7d
a:hover \x7b text-decoration: underline; \x7d

p.date \x7b color: #666; \x7d

#toc ul.toc \x7b
  list-style: none;
  padding: 0;
\x7d

#toc ul ul \x7b
  list-style: none;
  padding-left: 20px;
\x7d

div.code pre,
pre \x7b
  margin: 10px 0;
  padding: 10px;
  font-family: Menlo, monospace;
  font-size: 14px;
  background: #efefef;
  border-radius: 5px;
  overflow-x: auto;
\x7d

pre.numbers span:before \x7b
  content: attr(num);
  display: inline-block;
  width: 3em;
  margin-right: 1em;
  color: #999;
  text-align: right;
\x7d

div.playground \x7b
  position: relative;
\x7d

div.output \x7b
  padding: 8px;
  max-height: 300px;
  overflow: auto;
  background: #fffff0;
  font-family: Menlo, monospace;
  font-size: 14px;
  white-space: pre-wrap;
\x7d

div.image img \x7b
  max-width: 100%;
\x7d

figcaption \x7b
  font-size: 14px;
  color: #666;
\x7d

aside.notes \x7b
  margin: 10px 0;
  padding: 5px 10px;
  background: #fffbd6;
  font-size: 14px;
\x7d

.author p \x7b
  margin: 0;
\x7d

#footer \x7b
  margin-top: 40px;
  padding: 20px 0;
  color: #666;
  font-size: 12px;
  border-top: 1px solid #ddd;
\x7d
"

/-- The script that runs excerpts. -/
def playScript : String :=
"// Run buttons for interactive Go code blocks.
(function () \x7b
  'use strict';

  var COMPILE_URL = 'https://play.golang.org/compile';

  function sourceOf(block) \x7b
    var text = '';
    block.querySelectorAll('pre').forEach(function (pre) \x7b
      text += pre.textContent;
    \x7d);
    return text;
  \x7d

  function output(block) \x7b
    var out = block.querySelector('div.output');
    if (!out) \x7b
      out = document.createElement('div');
      out.className = 'output';
      block.appendChild(out);
    \x7d
    return out;
  \x7d

  function run(block) \x7b
    var out = output(block);
    out.textContent = 'Waiting for remote server...';

    var body = new URLSearchParams();
    body.set('version', '2');
    body.set('body', sourceOf(block));

    fetch(COMPILE_URL, \x7b method: 'POST', body: body \x7d)
      .then(function (resp) \x7b return resp.json(); \x7d)
      .then(function (data) \x7b
        if (data.Errors) \x7b
          out.textContent = data.Errors;
          return;
        \x7d
        out.textContent = (data.Events || []).map(function (e) \x7b
          return e.Message;
        \x7d).join('') + '\\nProgram exited.';
      \x7d)
      .catch(function (err) \x7b
        out.textContent = 'Error communicating with remote server: ' + err;
      \x7d);
  \x7d

  function init() \x7b
    document.querySelectorAll('div.code.playground').forEach(function (block) \x7b
      var button = document.createElement('button');
      button.className = 'run';
      button.textContent = 'Run';
      button.addEventListener('click', function (event) \x7b
        event.stopPropagation();
        run(block);
      \x7d);
      block.appendChild(button);
    \x7d);
  \x7d

  document.addEventListener('DOMContentLoaded', init);
\x7d)();
"

/-- The script that shows one slide after the other. -/
def slidesScript : String :=
"// Keyboard and click navigation for slide decks.
(function () \x7b
  'use strict';

  var slides = [];
  var current = 0;

  function show(index) \x7b
    if (index < 0 || index >= slides.length) \x7b
      return;
    \x7d
    slides[current].classList.remove('current');
    current = index;
    slides[current].classList.add('current');
    if (window.location.hash !== '#' + (current + 1)) \x7b
      history.replaceState(null, '', '#' + (current + 1));
    \x7d
  \x7d

  function hideHelp() \x7b
    var help = document.getElementById('help');
    if (help) \x7b
      help.style.display = 'none';
    \x7d
  \x7d

  function onKeyDown(event) \x7b
    // Let editable code blocks keep their keys.
    if (event.target.isContentEditable) \x7b
      return;
    \x7d
    switch (event.keyCode) \x7b
      case 39: // right
      case 34: // page down
      case 32: // space
        show(current + 1);
        hideHelp();
        event.preventDefault();
        break;
      case 37: // left
      case 33: // page up
      case 8:  // backspace
        show(current - 1);
        hideHelp();
        event.preventDefault();
        break;
      case 72: // H
        hideHelp();
        break;
      case 78: // N
        document.body.classList.toggle('with-notes');
        break;
    \x7d
  \x7d

  function onClick(event) \x7b
    if (event.target.closest('a, div.code')) \x7b
      return;
    \x7d
    if (event.clientX > window.innerWidth / 2) \x7b
      show(current + 1);
    \x7d else \x7b
      show(current - 1);
    \x7d
    hideHelp();
  \x7d

  function init() \x7b
    slides = Array.prototype.slice.call(
      document.querySelectorAll('section.slides > article'));
    if (slides.length === 0) \x7b
      return;
    \x7d
    var start = parseInt(window.location.hash.slice(1), 10) - 1;
    current = isNaN(start) ? 0 : Math.max(0, Math.min(start, slides.length - 1));
    slides[current].classList.add('current');

    document.addEventListener('keydown', onKeyDown);
    document.addEventListener('click', onClick);
    document.body.style.display = 'block';
  \x7d

  document.addEventListener('DOMContentLoaded', init);
\x7d)();
"

/-- The style sheet of slide decks. -/
def slidesStyle : String :=
"/* Slide deck layout. */

html, body \x7b
  margin: 0;
  padding: 0;
  height: 100%;
  font-family: 'Open Sans', Arial, sans-serif;
  color: #222;
  background: #e6e6e6;
\x7d

.slides \x7b
  height: 100%;
  width: 100%;
  position: absolute;
  left: 0;
  top: 0;
  overflow: hidden;
\x7d

.slides > article \x7b
  display: none;
  position: absolute;
  left: 50%;
  top: 50%;
  width: 900px;
  height: 700px;
  margin-left: -450px;
  margin-top: -350px;
  padding: 40px 60px;
  box-sizing: border-box;
  background: white;
  border-radius: 10px;
  box-shadow: 0 2px 6px rgba(0, 0, 0, 0.1);
  overflow: hidden;
\x7d

.layout-widescreen .slides > article \x7b
  width: 1100px;
  margin-left: -550px;
\x7d

.slides > article.current \x7b
  display: block;
\x7d

.slides > article.background \x7b
  background-size: cover;
  background-position: center;
\x7d

h1 \x7b font-size: 48px; margin: 120px 0 30px; \x7d
h2 \x7b font-size: 44px; margin: 240px 0 0; text-align: center; \x7d
h3 \x7b font-size: 32px; margin: 0 0 30px; \x7d

ul \x7b margin: 0 0 20px 30px; padding: 0; \x7d
li \x7b margin: 8px 0; font-size: 26px; \x7d
p  \x7b margin: 0 0 20px; font-size: 26px; line-height: 1.3; \x7d

a \x7b color: #0b6fc2; text-decoration: none; \x7d

.presenter p \x7b font-size: 22px; margin: 0; \x7d

div.code \x7b
  outline: none;
\x7d

div.code pre,
pre \x7b
  margin: 0 0 20px;
  padding: 10px;
  font-family: 'Droid Sans Mono', 'Courier New', monospace;
  font-size: 18px;
  line-height: 1.4;
  background: #f4f4f4;
  border-left: 3px solid #ddd;
  overflow: hidden;
\x7d

pre.numbers span:before \x7b
  content: attr(num);
  display: inline-block;
  width: 3em;
  margin-right: 1em;
  color: #aaa;
  text-align: right;
\x7d

div.playground \x7b
  position: relative;
\x7d

div.output \x7b
  position: absolute;
  left: 50%;
  right: 0;
  bottom: 0;
  max-height: 50%;
  padding: 8px;
  overflow: auto;
  background: black;
  color: white;
  font-family: monospace;
\x7d

div.image img \x7b
  display: block;
  margin: 0 auto;
\x7d

figcaption \x7b
  font-size: 18px;
  color: #666;
  text-align: center;
\x7d

.pagenumber \x7b
  position: absolute;
  right: 20px;
  bottom: 10px;
  font-size: 14px;
  color: #aaa;
\x7d

aside.notes \x7b
  display: none;
\x7d

body.with-notes aside.notes \x7b
  display: block;
  position: absolute;
  left: 0;
  right: 0;
  bottom: 0;
  padding: 10px 60px;
  background: #fffbd6;
  font-size: 16px;
\x7d

#help \x7b
  position: fixed;
  left: 50%;
  bottom: 20px;
  width: 600px;
  margin-left: -300px;
  padding: 10px 20px;
  background: rgba(0, 0, 0, 0.7);
  color: white;
  font-size: 16px;
  border-radius: 6px;
\x7d

@media print \x7b
  .slides > article \x7b
    display: block;
    position: relative;
    left: 0;
    top: 0;
    margin: 0 0 20px;
    page-break-after: always;
  \x7d
  #help \x7b display: none; \x7d
\x7d
"

/-- The assets with their paths, in the order in which they are written. -/
def assets : List (Path × String) :=
  [(.ofString "static/article.css", articleStyle), (.ofString "static/play.js", playScript),
    (.ofString "static/slides.js", slidesScript), (.ofString "static/styles.css", slidesStyle)]

end Lectern.Bundled
