import RouteTrees.Tree.Written

/-!
# The panel's page

The document that shows a route's tree: a selector of all routes, the error if the tree could not be
built, and the tree as data for the script that draws it. Texts from outside are written so that none of
them can end the place where it stands.
-/

namespace RouteTrees.Panel

/-- Where the drawing library is found by the browser. -/
def drawingLibrary : String := "https://d3js.org/d3.v7.min.js"

/-- The styles of the document, line by line. -/
def styleLines : List String :=
  ["body\x7bfont-family:system-ui,-apple-system,Segoe UI,Helvetica,Arial,sans-serif;margin:16px;\x7d",
   "header\x7bdisplay:flex;align-items:center;gap:12px;margin-bottom:8px;\x7d",
   "select\x7bfont-size:14px;padding:2px 6px;\x7d",
   ".legend\x7bdisplay:flex;gap:12px;font-size:12px;color:#555;\x7d",
   ".legend-dot\x7bwidth:10px;height:10px;border-radius:50%;display:inline-block;margin-right:4px;\x7d",
   ".error\x7bcolor:#b00020;font-family:monospace;white-space:pre-wrap;\x7d",
   ".node rect\x7bstroke:#666;stroke-width:1px;rx:4;\x7d",
   ".node.client rect\x7bfill:#fff3c4;\x7d",
   ".node.server rect\x7bfill:#d7f5dd;\x7d",
   ".node.unknown rect\x7bfill:#eee;stroke-dasharray:3 2;\x7d",
   ".node text\x7bfont:11px sans-serif;\x7d",
   ".link\x7bfill:none;stroke:#ccc;stroke-width:2px;\x7d"]

/-- The lines of the script. It sends the chosen route to whoever shows the page, and draws the tree. -/
def scriptLines : List String :=
  ["(function () \x7b",
   "  var host = typeof acquireVsCodeApi === \"function\" ? acquireVsCodeApi() : null;",
   "  document.querySelector(\"#route-select\").addEventListener(\"change\", function (event) \x7b",
   "    var message = \x7b command: \"change-route\", route: event.target.value \x7d;",
   "    if (host) \x7b host.postMessage(message); \x7d else \x7b console.log(JSON.stringify(message)); \x7d",
   "  \x7d);",
   "",
   "  var data = JSON.parse(document.querySelector(\"#tree-data\").textContent);",
   "  if (!data) \x7b return; \x7d",
   "",
   "  var root = d3.hierarchy(data, function (d) \x7b return d.children; \x7d);",
   "  var nodeWidth = 160, nodeHeight = 90;",
   "  d3.tree().nodeSize([nodeWidth, nodeHeight])(root);",
   "",
   "  var minX = d3.min(root.descendants(), function (d) \x7b return d.x; \x7d);",
   "  var maxX = d3.max(root.descendants(), function (d) \x7b return d.x; \x7d);",
   "  var margin = \x7b top: 20, right: nodeWidth, bottom: 40, left: nodeWidth \x7d;",
   "  var width = maxX - minX + margin.left + margin.right;",
   "  var height = (root.height + 1) * nodeHeight + margin.top + margin.bottom;",
   "",
   "  var svg = d3.select(\"#tree\")",
   "    .append(\"svg\")",
   "    .attr(\"width\", width)",
   "    .attr(\"height\", height)",
   "    .append(\"g\")",
   "    .attr(\"transform\", \"translate(\" + (margin.left - minX) + \",\" + margin.top + \")\");",
   "",
   "  svg.selectAll(\".link\")",
   "    .data(root.descendants().slice(1))",
   "    .enter()",
   "    .append(\"path\")",
   "    .attr(\"class\", \"link\")",
   "    .attr(\"d\", function (d) \x7b",
   "      var midY = (d.y + d.parent.y) / 2;",
   "      return \"M\" + d.x + \",\" + d.y +",
   "        \"C\" + d.x + \",\" + midY +",
   "        \" \" + d.parent.x + \",\" + midY +",
   "        \" \" + d.parent.x + \",\" + d.parent.y;",
   "    \x7d);",
   "",
   "  var node = svg.selectAll(\".node\")",
   "    .data(root.descendants())",
   "    .enter()",
   "    .append(\"g\")",
   "    .attr(\"class\", function (d) \x7b return \"node \" + (d.data.componentType || \"unknown\"); \x7d)",
   "    .attr(\"transform\", function (d) \x7b return \"translate(\" + d.x + \",\" + d.y + \")\"; \x7d);",
   "",
   "  node.append(\"title\").text(function (d) \x7b return d.data.path || d.data.name; \x7d);",
   "  node.append(\"rect\").attr(\"width\", 140).attr(\"height\", 36).attr(\"x\", -70).attr(\"y\", -12);",
   "  node.append(\"text\")",
   "    .attr(\"dy\", \"0.35em\")",
   "    .attr(\"text-anchor\", \"middle\")",
   "    .text(function (d) \x7b return d.data.name + (d.data.cycle ? \" (cycle)\" : \"\"); \x7d);",
   "  node.append(\"text\")",
   "    .attr(\"dy\", \"1.6em\")",
   "    .attr(\"text-anchor\", \"middle\")",
   "    .text(function (d) \x7b return d.data.componentType || \"\"; \x7d);",
   "\x7d)();"]

/-- Lines as a block, with a line break before the first and after each. -/
def lineBlock (lines : List String) : String := "\n" ++ String.join (lines.map (· ++ "\n"))

/-- How a character is written in an attribute or between tags. -/
def escapeMarkup (c : Char) : String :=
  if c = '&' then "&amp;"
  else if c = '<' then "&lt;"
  else if c = '>' then "&gt;"
  else if c = '"' then "&quot;"
  else if c = '\'' then "&#x27;"
  else String.singleton c

/-- A text as it is written in an attribute or between tags. -/
def markup (s : String) : String := String.join (s.toList.map escapeMarkup)

/-- How a character of JSON is written within a script. -/
def escapeScript (c : Char) : List Char :=
  if c = '<' then "\\u003c".toList
  else if c = '>' then "\\u003e".toList
  else if c = '&' then "\\u0026".toList
  else [c]

/-- The tree as data, or `null` if there is none. -/
def treeData (tree : Option Nested) : String :=
  let json := match tree with
    | some t => t.toJson
    | none => .null
  String.ofList (json.compact.flatMap escapeScript)

/-- The option of a route, selected if it is the current one. -/
def option (current route : String) : String :=
  "<option value=\"" ++ markup route ++ "\"" ++ (if route = current then " selected" else "") ++ ">" ++
    markup route ++ "</option>\n"

/-- The error, if there is one. -/
def banner (error : Option String) : String :=
  match error with
  | some e => "<p class=\"error\">" ++ markup e ++ "</p>\n"
  | none => ""

/-- What the colours mean. -/
def legend : String :=
  "<div class=\"legend\">" ++
  "<span><span class=\"legend-dot\" style=\"background:#fff3c4\"></span>client</span>" ++
  "<span><span class=\"legend-dot\" style=\"background:#d7f5dd\"></span>server</span></div>\n"

/-- The document up to the routes. -/
def preamble : String :=
  "<!DOCTYPE html>\n<html>\n<head>\n<meta charset=\"UTF-8\" />\n" ++
  "<title>Route component tree</title>\n" ++
  "<script src=\"" ++ drawingLibrary ++ "\"></script>\n" ++
  "<style>" ++ lineBlock styleLines ++ "</style>\n</head>\n<body>\n<header>\n"

/-- The whole document: the routes to choose from, what went wrong if something did, and the tree as data. -/
def page (current : String) (routes : List String) (tree : Option Nested) (error : Option String) :
    String :=
  preamble ++
  "<select id=\"route-select\" name=\"route\">\n" ++
  String.join (routes.map (option current)) ++
  "</select>\n" ++ legend ++ "</header>\n" ++
  "<p>Current route: <code>" ++ markup current ++ "</code></p>\n" ++
  banner error ++
  "<div id=\"tree\"></div>\n" ++
  "<script id=\"tree-data\" type=\"application/json\">" ++ treeData tree ++
  "</script>\n<script>" ++ lineBlock scriptLines ++ "</script>\n</body>\n</html>\n"

end RouteTrees.Panel
